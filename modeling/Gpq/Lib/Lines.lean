import Mathlib.Data.List.Basic

/-!
# Lines of a stream

A reader of a stream that arrives in chunks takes the lines that are complete (`drain`), and keeps
what is behind the last separator until more of the stream arrives (`feed`). A line may end the
reading.

How the stream is cut into chunks does not matter: `drain` does the same as a reader that is given
one element after the other (`push`), and there the chunks are just joined (`foldl_feed`).

* `foldl_feed_lines`: a stream of whole lines is taken line by line.
-/

namespace Lines

variable {α σ ω : Type*} [DecidableEq α] (sep : α)

/-- The first line, with its separator, and what is behind it. -/
def splitLine : List α → Option (List α × List α)
  | [] => none
  | a :: l => if a = sep then some ([a], l)
    else (splitLine l).map fun (line, rest) => (a :: line, rest)

/-- What is left behind a line is shorter. -/
theorem splitLine_length {l line rest : List α} (h : splitLine sep l = some (line, rest)) :
    rest.length < l.length := by
  induction l generalizing line with
  | nil => cases h
  | cons a l ih =>
    rw [splitLine] at h
    split at h
    · cases h
      exact Nat.lt_succ_self _
    · obtain ⟨⟨line', rest'⟩, hsplit, heq⟩ := Option.map_eq_some_iff.1 h
      cases heq
      exact Nat.lt_succ_of_lt (ih hsplit)

/-- What a reader has: a state, and the beginning of a line or how the reading ended. -/
abbrev Reading (α σ ω : Type*) := σ × (List α ⊕ ω)

variable (take : σ → List α → σ × Option ω)

/-- Takes the complete lines, one after the other, until one ends the reading. -/
def drain (s : σ) (pending : List α) : Reading α σ ω :=
  match _h : splitLine sep pending with
  | none => (s, .inl pending)
  | some (line, rest) =>
    match take s line with
    | (s', none) => drain s' rest
    | (s', some o) => (s', .inr o)
termination_by pending.length
decreasing_by exact splitLine_length sep _h

/-- The reader is given a chunk. -/
def feed : Reading α σ ω → List α → Reading α σ ω
  | (s, .inl pending), chunk => drain sep take s (pending ++ chunk)
  | (s, .inr o), _ => (s, .inr o)

/-- The reader is given one element. -/
def push : Reading α σ ω → α → Reading α σ ω
  | (s, .inl pending), a =>
    if a = sep then
      match take s (pending ++ [a]) with
      | (s', none) => (s', .inl [])
      | (s', some o) => (s', .inr o)
    else (s, .inl (pending ++ [a]))
  | (s, .inr o), _ => (s, .inr o)

/-- The reader takes lines without their separators. -/
def consume (s : σ) : List (List α) → Reading α σ ω
  | [] => (s, .inl [])
  | line :: lines =>
    match take s (line ++ [sep]) with
    | (s', none) => consume s' lines
    | (s', some o) => (s', .inr o)

variable {sep take} {s : σ} {o : ω} {pending : List α}

/-- Without a separator there is no line. -/
theorem splitLine_eq_none (h : sep ∉ pending) : splitLine sep pending = none := by
  induction pending with
  | nil => rfl
  | cons a l ih =>
    obtain ⟨hne, hmem⟩ := List.ne_and_not_mem_of_not_mem_cons h
    rw [splitLine, if_neg (Ne.symm hne), ih hmem]
    rfl

/-- A line ends with the first separator. -/
theorem splitLine_append (h : sep ∉ pending) (rest : List α) :
    splitLine sep (pending ++ sep :: rest) = some (pending ++ [sep], rest) := by
  induction pending with
  | nil => rw [List.nil_append, splitLine, if_pos rfl, List.nil_append]
  | cons a l ih =>
    obtain ⟨hne, hmem⟩ := List.ne_and_not_mem_of_not_mem_cons h
    rw [List.cons_append, splitLine, if_neg (Ne.symm hne), ih hmem]
    rfl

/-- Nothing is taken from an incomplete line. -/
theorem drain_of_not_mem (h : sep ∉ pending) : drain sep take s pending = (s, .inl pending) := by
  rw [drain]
  split
  · rfl
  · rename_i hsplit
    rw [splitLine_eq_none h] at hsplit
    cases hsplit

/-- A complete line is taken. -/
theorem drain_append (h : sep ∉ pending) (rest : List α) :
    drain sep take s (pending ++ sep :: rest) =
      match take s (pending ++ [sep]) with
      | (s', none) => drain sep take s' rest
      | (s', some o) => (s', .inr o) := by
  rw [drain]
  split
  · rename_i hsplit
    rw [splitLine_append h] at hsplit
    cases hsplit
  · rename_i hsplit
    rw [splitLine_append h] at hsplit
    cases hsplit
    rfl

/-- Behind its end, the reading goes on no more. -/
theorem foldl_push_ended (l : List α) : l.foldl (push sep take) (s, .inr o) = (s, .inr o) := by
  induction l with
  | nil => rfl
  | cons a l ih => exact ih

/-- Whoever is done takes nothing any more. -/
theorem foldl_feed_ended (chunks : List (List α)) :
    chunks.foldl (feed sep take) (s, .inr o) = (s, .inr o) := by
  induction chunks with
  | nil => rfl
  | cons chunk chunks ih => exact ih

/-- The lines of a chunk are taken as its elements are pushed. -/
theorem drain_eq_foldl_push (h : sep ∉ pending) (chunk : List α) :
    drain sep take s (pending ++ chunk) = chunk.foldl (push sep take) (s, .inl pending) := by
  induction chunk generalizing s pending with
  | nil => rw [List.append_nil, drain_of_not_mem h, List.foldl_nil]
  | cons a chunk ih =>
    rw [List.foldl_cons, push]
    split
    · rename_i hsep
      subst hsep
      rw [drain_append h]
      rcases take s (pending ++ [a]) with ⟨s', _ | o⟩
      · exact ih List.not_mem_nil
      · exact (foldl_push_ended chunk).symm
    · rename_i hsep
      rw [List.append_cons]
      refine ih fun hmem => ?_
      rcases List.mem_append.1 hmem with hmem | hmem
      · exact h hmem
      · exact hsep (List.mem_singleton.1 hmem).symm

/-- What a reader keeps is the beginning of one line. -/
theorem not_mem_of_foldl_push {s' : σ} {pending' chunk : List α} (h : sep ∉ pending)
    (hpush : chunk.foldl (push sep take) (s, .inl pending) = (s', .inl pending')) :
    sep ∉ pending' := by
  induction chunk generalizing s pending with
  | nil =>
    cases hpush
    exact h
  | cons a chunk ih =>
    rw [List.foldl_cons, push] at hpush
    split at hpush
    · generalize take s (pending ++ [a]) = taken at hpush
      rcases taken with ⟨s'', _ | o⟩
      · exact ih List.not_mem_nil hpush
      · cases (foldl_push_ended chunk).symm.trans hpush
    · rename_i hsep
      refine ih (fun hmem => ?_) hpush
      rcases List.mem_append.1 hmem with hmem | hmem
      · exact h hmem
      · exact hsep (List.mem_singleton.1 hmem).symm

/-- How the stream is cut into chunks does not matter. -/
theorem foldl_feed (h : sep ∉ pending) (chunks : List (List α)) :
    chunks.foldl (feed sep take) (s, .inl pending) =
      chunks.flatten.foldl (push sep take) (s, .inl pending) := by
  induction chunks generalizing s pending with
  | nil => rfl
  | cons chunk chunks ih =>
    rw [List.foldl_cons, List.flatten_cons, List.foldl_append, feed, drain_eq_foldl_push h]
    generalize hpush : chunk.foldl (push sep take) (s, .inl pending) = reading
    rcases reading with ⟨s', pending' | o⟩
    · exact ih (not_mem_of_foldl_push h hpush)
    · rw [foldl_push_ended, foldl_feed_ended]

/-- The elements of a line are kept. -/
theorem foldl_push_of_not_mem {line : List α} (h : sep ∉ line) :
    line.foldl (push sep take) (s, .inl pending) = (s, .inl (pending ++ line)) := by
  induction line generalizing pending with
  | nil => rw [List.foldl_nil, List.append_nil]
  | cons a line ih =>
    obtain ⟨hne, hmem⟩ := List.ne_and_not_mem_of_not_mem_cons h
    rw [List.foldl_cons, push, if_neg (Ne.symm hne), ih hmem, List.append_assoc]
    rfl

/-- A stream of whole lines is taken line by line, however it is cut into chunks. -/
theorem foldl_feed_lines {lines chunks : List (List α)} (hlines : ∀ line ∈ lines, sep ∉ line)
    (hchunks : chunks.flatten = lines.flatMap (· ++ [sep])) :
    chunks.foldl (feed sep take) (s, .inl []) = consume sep take s lines := by
  rw [foldl_feed List.not_mem_nil, hchunks]
  clear hchunks
  induction lines generalizing s with
  | nil => rfl
  | cons line lines ih =>
    have hrest : ∀ line ∈ lines, sep ∉ line := fun l hl => hlines l (List.mem_cons_of_mem _ hl)
    rw [List.flatMap_cons, List.foldl_append, List.foldl_append,
      foldl_push_of_not_mem (hlines line List.mem_cons_self), List.foldl_cons, List.foldl_nil, push,
        if_pos rfl,
      List.nil_append, consume]
    rcases take s (line ++ [sep]) with ⟨s', _ | o⟩
    · exact ih hrest
    · exact foldl_push_ended _

end Lines
