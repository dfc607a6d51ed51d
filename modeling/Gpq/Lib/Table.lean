import Mathlib.Data.List.AList
import Mathlib.Data.Set.Card

/-!
# Tables

A table is a finite map from primary keys to rows, kept as a list so that it can
be scanned. `Table.rows` is the scan, `Table.mem_rows` says that it finds what a
lookup finds, and the `count` lemmas follow a count of rows through an insertion,
an update and a deletion.
-/

namespace Sql

variable {κ ρ : Type} [DecidableEq κ]

/-- A table: rows under distinct primary keys. -/
abbrev Table (κ ρ : Type) := AList fun _ : κ => ρ

namespace Table

/-- The table with another row, or none, under a key. -/
def set (t : Table κ ρ) (k : κ) : Option ρ → Table κ ρ
  | some r => t.insert k r
  | none => t.erase k

@[simp] theorem lookup_set_self (t : Table κ ρ) (k : κ) (r : Option ρ) :
    (set t k r).lookup k = r := by
  cases r with
  | none => exact AList.lookup_erase k t
  | some r => exact AList.lookup_insert t

/-- Other rows stay as they are. -/
theorem lookup_set_of_ne (t : Table κ ρ) {k j : κ} (r : Option ρ) (h : j ≠ k) :
    (set t k r).lookup j = t.lookup j := by
  cases r with
  | none => exact AList.lookup_erase_ne h
  | some r => exact AList.lookup_insert_ne h

/-- The scan of a table. -/
def rows (t : Table κ ρ) : List (κ × ρ) := t.entries.map fun e => (e.1, e.2)

/-- The scan finds exactly what lookups find. -/
theorem mem_rows {t : Table κ ρ} {k : κ} {r : ρ} : (k, r) ∈ t.rows ↔ t.lookup k = some r := by
  rw [← Option.mem_def, AList.mem_lookup_iff, rows, List.mem_map]
  constructor
  · rintro ⟨e, he, heq⟩
    obtain ⟨rfl, rfl⟩ := Prod.mk.inj heq
    exact he
  · intro h
    exact ⟨⟨k, r⟩, h, rfl⟩

omit [DecidableEq κ] in
/-- There is one row for a key. -/
theorem rows_nodup_keys (t : Table κ ρ) : (t.rows.map Prod.fst).Nodup := by
  have h := t.keys_nodup
  rwa [AList.keys, List.keys, show (Sigma.fst : ((_ : κ) × ρ) → κ) = Prod.fst ∘ fun e => (e.1, e.2)
    from rfl, ← List.map_map] at h

/-- The number of rows that satisfy `p`. -/
def count (p : κ → ρ → Bool) (t : Table κ ρ) : ℕ := t.rows.countP fun e => p e.1 e.2

section Count

variable (p : κ → ρ → Bool) (t : Table κ ρ) {k : κ}

/-- There are none exactly if no row is one. -/
theorem count_eq_zero_iff : t.count p = 0 ↔ ∀ k r, t.lookup k = some r → ¬ p k r := by
  rw [count, List.countP_eq_zero]
  constructor
  · intro h k r hr
    exact h (k, r) (mem_rows.2 hr)
  · rintro h ⟨k, r⟩ hr
    exact h k r (mem_rows.1 hr)

/-- The count is the number of keys whose row satisfies `p`. -/
theorem encard_eq_count : {k | ∃ r, t.lookup k = some r ∧ p k r}.encard = t.count p := by
  have hset : {k | ∃ r, t.lookup k = some r ∧ p k r} =
      ((t.rows.filter fun e => p e.1 e.2).map Prod.fst).toFinset := by
    ext k
    simp only [Set.mem_ofPred_eq, List.coe_toFinset, List.mem_map, List.mem_filter, Prod.exists,
      mem_rows, exists_and_right, exists_eq_right]
  have hnodup : ((t.rows.filter fun e => p e.1 e.2).map Prod.fst).Nodup :=
    t.rows_nodup_keys.sublist (List.filter_sublist.map _)
  rw [hset, Set.encard_coe_eq_coe_finsetCard, List.toFinset_card_of_nodup hnodup, List.length_map,
    count, List.countP_eq_length_filter]

theorem count_erase_of_none (h : t.lookup k = none) : count p (t.erase k) = count p t := by
  have hk : k ∉ t := AList.lookup_eq_none.1 h
  rw [show t.erase k = t from AList.ext (List.kerase_of_notMem_keys hk)]

/-- A row that is written counts for itself; its old version does not any more. -/
theorem count_insert (r : ρ) :
    count p (t.insert k r) = count p (t.erase k) + (if p k r then 1 else 0) := by
  rw [count, count, rows, rows, AList.entries_insert, List.map_cons, List.countP_cons]
  rfl

/-- An insertion of a new key adds what the row counts. -/
theorem count_insert_of_none (r : ρ) (h : t.lookup k = none) :
    count p (t.insert k r) = count p t + (if p k r then 1 else 0) := by
  rw [count_insert, count_erase_of_none p t h]

end Count

end Table

end Sql
