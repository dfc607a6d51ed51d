import Mathlib.Data.List.Basic

/-!
# Chunks

Data that is sent in chunks: each says where it starts and whether it is the final one. `Cuts`
is how a sender cuts data that starts at an offset, at most so much at a time.

* `Cuts.spans`: what such chunks cover;
* `Cuts.more_take`, `cut_induction`: a sender that always sends as much as it may;
* a receiver follows the chunks by induction over `Cuts`.
-/

namespace Chunks

variable {α : Type*}

/-- A part of some data. -/
structure Chunk (α : Type*) where
  offset : ℕ
  data : List α
  last : Bool

/-- Data, from an offset on, in chunks of at most `limit` elements: while something remains for
    later a chunk is not empty, and the final chunk is what remains. -/
inductive Cuts (limit : ℕ) : ℕ → List α → List (Chunk α) → Prop
  | final {offset : ℕ} {data : List α} (h : data.length ≤ limit) :
    Cuts limit offset data [⟨offset, data, true⟩]
  | more {offset : ℕ} {data rest : List α} {chunks : List (Chunk α)} (hdata : data ≠ [])
    (hle : data.length ≤ limit) (hrest : rest ≠ [])
    (h : Cuts limit (offset + data.length) rest chunks) :
    Cuts limit offset (data ++ rest) (⟨offset, data, false⟩ :: chunks)

/-- Chunks that cover data from an offset on: contiguous, bounded and not empty, except for the
    only chunk of no data, and the final one marked. -/
structure Spans (limit offset : ℕ) (data : List α) (chunks : List (Chunk α)) : Prop where
  joined : chunks.flatMap Chunk.data = data
  contiguous : ∀ before chunk after, chunks = before ++ chunk :: after →
    chunk.offset = offset + (before.flatMap Chunk.data).length
  bounded : ∀ chunk ∈ chunks, chunk.data.length ≤ limit
  nonempty : data ≠ [] → ∀ chunk ∈ chunks, chunk.data ≠ []
  empty : data = [] → chunks = [⟨offset, [], true⟩]
  /-- Exactly one chunk is marked, the final one. -/
  marked : ∃ n, chunks.map Chunk.last = List.replicate n false ++ [true]

section

variable {limit offset : ℕ} {data : List α} {chunks : List (Chunk α)}

/-- A cut covers its data. -/
theorem Cuts.spans (h : Cuts limit offset data chunks) : Spans limit offset data chunks := by
  induction h with
  | @final offset data hle =>
    refine ⟨List.append_nil _, fun before chunk after hsplit => ?_, ?_, ?_, ?_, 0, rfl⟩
    · rcases before with _ | ⟨first, before⟩
      · cases hsplit
        rfl
      · cases before <;> cases hsplit
    · rintro chunk hchunk
      rwa [List.mem_singleton.1 hchunk]
    · rintro hne chunk hchunk
      rwa [List.mem_singleton.1 hchunk]
    · rintro rfl
      rfl
  | @more offset data rest chunks hdata hle hrest _ ih =>
    obtain ⟨n, hmarked⟩ := ih.marked
    refine ⟨?_, fun before chunk after hsplit => ?_, ?_, fun _ => ?_, fun hnil => ?_, n + 1, ?_⟩
    · rw [List.flatMap_cons, ih.joined]
    · rcases before with _ | ⟨first, before⟩
      · cases hsplit
        rfl
      · -- what comes before it is this chunk, and what comes before it among the others
        rw [List.cons_append, List.cons.injEq] at hsplit
        obtain ⟨rfl, hsplit⟩ := hsplit
        rw [ih.contiguous before chunk after hsplit, List.flatMap_cons, List.length_append,
          Nat.add_assoc]
    · exact List.forall_mem_cons.2 ⟨hle, ih.bounded⟩
    · exact List.forall_mem_cons.2 ⟨hdata, ih.nonempty hrest⟩
    · exact absurd (List.append_eq_nil_iff.1 hnil).1 hdata
    · rw [List.map_cons, hmarked]
      rfl

/-- Much data takes many chunks. -/
theorem Spans.length_le (h : Spans limit offset data chunks) :
    data.length ≤ chunks.length * limit := by
  have hlength : ∀ chunks : List (Chunk α), (∀ chunk ∈ chunks, chunk.data.length ≤ limit) →
      (chunks.flatMap Chunk.data).length ≤ chunks.length * limit := by
    intro chunks hbounded
    induction chunks with
    | nil => exact Nat.zero_le _
    | cons chunk chunks ih =>
      obtain ⟨hfirst, hrest⟩ := List.forall_mem_cons.1 hbounded
      rw [List.flatMap_cons, List.length_append, List.length_cons, Nat.succ_mul, Nat.add_comm]
      exact Nat.add_le_add (ih hrest) hfirst
  rw [← h.joined]
  exact hlength chunks h.bounded

/-- A chunk that carries as much as it may, while more remains. -/
theorem Cuts.more_take (hlimit : 0 < limit) (hmore : limit < data.length)
    (h : Cuts limit (offset + limit) (data.drop limit) chunks) :
    Cuts limit offset data (⟨offset, data.take limit, false⟩ :: chunks) := by
  have hlength : (data.take limit).length = limit := List.length_take_of_le (Nat.le_of_lt hmore)
  have hne : data.take limit ≠ [] := by
    rw [← List.length_pos_iff, hlength]
    exact hlimit
  have hrest : data.drop limit ≠ [] := by
    rw [← List.length_pos_iff, List.length_drop]
    omega
  have hcut := Cuts.more hne (Nat.le_of_eq hlength) hrest (by rwa [hlength])
  rwa [List.take_append_drop] at hcut

/-- Along the chunks that carry as much as they may. -/
theorem cut_induction (hlimit : 0 < limit) {motive : List α → Prop}
    (final : ∀ data : List α, data.length ≤ limit → motive data)
    (more : ∀ data : List α, limit < data.length → motive (data.drop limit) → motive data)
    (data : List α) : motive data := by
  induction hlength : data.length using Nat.strongRecOn generalizing data with
  | ind n ih =>
    subst hlength
    rcases Nat.lt_or_ge limit data.length with hmore | hfinal
    · refine more data hmore (ih _ ?_ _ rfl)
      rw [List.length_drop]
      omega
    · exact final data hfinal

end

end Chunks
