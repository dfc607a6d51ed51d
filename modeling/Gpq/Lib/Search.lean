import Mathlib.Data.List.Infix

/-!
# Searching a buffer

Where a pattern first occurs in a list (`position`). Of a buffer that grows, a prefix is searched:
the pattern is found in the prefix exactly if its first occurrence in the whole ends there, and
then at the same position (`position_eq_some_of_extends`, `position_eq_none_of_extends`).
-/

namespace Search

variable {α : Type*} {pattern l l' : List α} {i : ℕ}

/-- What occurs in a prefix occurs in the whole. -/
theorem occurs_mono (hpre : l <+: l') (h : pattern <+: l.drop i) : pattern <+: l'.drop i :=
  h.trans (hpre.drop i)

/-- A prefix holds the occurrences that end in it. -/
theorem occurs_restrict (hpre : l <+: l') (hi : i + pattern.length ≤ l.length)
    (h : pattern <+: l'.drop i) :
    pattern <+: l.drop i := by
  refine List.prefix_of_prefix_length_le h (hpre.drop i) ?_
  rw [List.length_drop]
  omega

variable [DecidableEq α]

/-- The first position at which a pattern occurs. -/
def position (pattern : List α) : List α → Option ℕ
  | [] => none
  | a :: l => if pattern <+: a :: l then some 0 else (position pattern l).map (· + 1)

/-- Where the pattern is found, it occurs, and not before. -/
theorem position_eq_some_iff (hpattern : pattern ≠ []) :
    position pattern l = some i ↔ pattern <+: l.drop i ∧ ∀ j < i, ¬ pattern <+: l.drop j := by
  induction l generalizing i with
  | nil =>
    refine ⟨nofun, fun h => absurd (List.prefix_nil.1 ?_) hpattern⟩
    rw [← List.drop_nil (i := i)]
    exact h.1
  | cons a l ih =>
    rw [position]
    split
    · rename_i hpre
      constructor
      · intro h
        cases h
        exact ⟨hpre, nofun⟩
      · rintro ⟨-, hfirst⟩
        rcases i with _ | i
        · rfl
        · exact absurd hpre (hfirst 0 i.succ_pos)
    · rename_i hpre
      rw [Option.map_eq_some_iff]
      constructor
      · rintro ⟨j, hj, rfl⟩
        obtain ⟨hoccurs, hfirst⟩ := ih.1 hj
        refine ⟨hoccurs, fun k hk => ?_⟩
        rcases k with _ | k
        · exact hpre
        · exact hfirst k (Nat.lt_of_succ_lt_succ hk)
      · rintro ⟨hoccurs, hfirst⟩
        rcases i with _ | i
        · exact absurd hoccurs hpre
        · exact ⟨i, ih.2 ⟨hoccurs, fun j hj => hfirst (j + 1) (Nat.succ_lt_succ hj)⟩, rfl⟩

/-- What is found is within the list. -/
theorem position_add_length_le (hpattern : pattern ≠ []) (h : position pattern l = some i) :
    i + pattern.length ≤ l.length := by
  have hlength := ((position_eq_some_iff hpattern).1 h).1.length_le
  have hpositive := List.length_pos_iff.2 hpattern
  rw [List.length_drop] at hlength
  omega

/-- What is found in a prefix is found in the whole. -/
theorem position_of_extends (hpattern : pattern ≠ []) (hpre : l <+: l')
    (h : position pattern l = some i) :
    position pattern l' = some i := by
  obtain ⟨hoccurs, hfirst⟩ := (position_eq_some_iff hpattern).1 h
  have hlength := position_add_length_le hpattern h
  refine (position_eq_some_iff hpattern).2 ⟨occurs_mono hpre hoccurs, fun j hj hj' => hfirst j hj ?_⟩
  exact occurs_restrict hpre (by omega) hj'

/-- The pattern is found in a prefix where its first occurrence ends there. -/
theorem position_eq_some_of_extends (hpattern : pattern ≠ []) (hpre : l <+: l')
    (h : position pattern l' = some i) (hi : i + pattern.length ≤ l.length) :
    position pattern l = some i := by
  obtain ⟨hoccurs, hfirst⟩ := (position_eq_some_iff hpattern).1 h
  exact (position_eq_some_iff hpattern).2
    ⟨occurs_restrict hpre hi hoccurs, fun j hj hj' => hfirst j hj (occurs_mono hpre hj')⟩

/-- The pattern is not found in a prefix that ends before its first occurrence does. -/
theorem position_eq_none_of_extends (hpattern : pattern ≠ []) (hpre : l <+: l')
    (h : position pattern l' = some i) (hi : l.length < i + pattern.length) :
    position pattern l = none := by
  rcases hposition : position pattern l with _ | j
  · rfl
  · have hj := position_add_length_le hpattern hposition
    refine absurd (occurs_mono hpre ((position_eq_some_iff hpattern).1 hposition).1) ?_
    exact ((position_eq_some_iff hpattern).1 h).2 j (by omega)

end Search
