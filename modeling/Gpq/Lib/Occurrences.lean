import Mathlib.Data.List.Basic
import Mathlib.Data.List.Nodup

/-!
# First occurrences

A list without its repetitions, in the order in which its elements first occur
(`FirstOccurrences`). Collecting the elements that are not there yet yields it
(`firstOccurrences_collect`).
-/

namespace Occurrences

variable {α : Type*} [DecidableEq α]

/-- Every element of a list once, in the order of its first occurrences. -/
structure FirstOccurrences (l collected : List α) : Prop where
  nodup : collected.Nodup
  mem_iff : ∀ a, a ∈ collected ↔ a ∈ l
  ordered : collected.Pairwise fun a b => l.idxOf a < l.idxOf b

/-- Adds an element that is not there yet. -/
def collect (collected : List α) (a : α) : List α := if a ∈ collected then collected
    else collected ++ [a]

theorem firstOccurrences_nil : FirstOccurrences ([] : List α) [] :=
  ⟨List.nodup_nil, fun _ => Iff.rfl, List.Pairwise.nil⟩

/-- What occurs in a list occurs in a longer one where it did. -/
theorem FirstOccurrences.concat {l collected : List α} (h : FirstOccurrences l collected) (a : α) :
    FirstOccurrences (l ++ [a]) (collect collected a) := by
  have hordered : collected.Pairwise fun b c => (l ++ [a]).idxOf b < (l ++ [a]).idxOf c := by
    refine h.ordered.imp_of_mem fun {b c} hb hc hlt => ?_
    rwa [List.idxOf_append_of_mem ((h.mem_iff b).1 hb), List.idxOf_append_of_mem ((h.mem_iff c).1 hc)]
  rw [collect]
  split
  · rename_i hold
    refine ⟨h.nodup, fun b => ?_, hordered⟩
    rw [h.mem_iff, List.mem_append, List.mem_singleton]
    constructor
    · exact Or.inl
    · rintro (hb | rfl)
      · exact hb
      · exact (h.mem_iff b).1 hold
  · rename_i hnew
    have hnew' : a ∉ l := fun ha => hnew ((h.mem_iff a).2 ha)
    refine ⟨List.nodup_append.2 ⟨h.nodup, List.nodup_singleton a, ?_⟩, fun b => ?_, ?_⟩
    · rintro b hb c hc rfl
      rw [List.mem_singleton] at hc
      exact hnew (hc ▸ hb)
    · rw [List.mem_append, List.mem_append, h.mem_iff]
    · rw [List.pairwise_append]
      refine ⟨hordered, List.pairwise_singleton _ _, fun b hb c hc => ?_⟩
      rw [List.mem_singleton.1 hc, List.idxOf_append_of_mem ((h.mem_iff b).1 hb),
        List.idxOf_append_of_notMem hnew']
      exact Nat.lt_add_right _ (List.idxOf_lt_length_of_mem ((h.mem_iff b).1 hb))

/-- Collecting continues what was collected of an earlier part. -/
theorem FirstOccurrences.foldl {l collected : List α} (h : FirstOccurrences l collected)
    (rest : List α) :
    FirstOccurrences (l ++ rest) (rest.foldl collect collected) := by
  induction rest generalizing l collected with
  | nil => rwa [List.append_nil]
  | cons a rest ih =>
    have := ih (h.concat a)
    rwa [List.append_assoc, List.singleton_append] at this

theorem firstOccurrences_collect (l : List α) : FirstOccurrences l (l.foldl collect []) :=
  firstOccurrences_nil.foldl l

end Occurrences
