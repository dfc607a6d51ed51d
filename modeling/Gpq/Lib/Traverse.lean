import Mathlib.Data.List.Forall2

/-!
# Fallible computations

A sequence succeeds where both of its parts do. A traversal that stops at the first error succeeds
exactly where every element does, with their results in order.
-/

namespace Traverse

variable {α β γ ε : Type} {f : α → Except ε β} {l : List α} {bs : List β}

@[simp] theorem ok_bind (a : α) : (Except.ok a : Except ε α) >>= f = f a := rfl

/-- Two steps succeed exactly if the first does, and the second on its answer. -/
theorem bind_eq_ok_iff {x : Except ε α} {b : β} : x >>= f = .ok b ↔ ∃ a, x = .ok a ∧ f a = .ok b := by
  cases x with
  | error e => exact ⟨nofun, nofun⟩
  | ok a =>
    constructor
    · rintro h
      exact ⟨a, rfl, h⟩
    · rintro ⟨_, ⟨⟩, h⟩
      exact h

/-- Two steps fail with the error of the first, or with that of the second. -/
theorem bind_eq_error_iff {x : Except ε α} {e : ε} :
    x >>= f = .error e ↔ x = .error e ∨ ∃ a, x = .ok a ∧ f a = .error e := by
  cases x with
  | error e' => exact ⟨fun h => .inl (congrArg Except.error (Except.error.inj h)),
      fun h => h.elim (fun h => congrArg Except.error (Except.error.inj h)) nofun⟩
  | ok a =>
    constructor
    · rintro h
      exact .inr ⟨a, rfl, h⟩
    · rintro (⟨⟨⟩⟩ | ⟨_, ⟨⟩, h⟩)
      exact h

/-- A success stays under other names of errors. -/
theorem mapError_eq_ok_iff {ε' : Type} {x : Except ε α} {g : ε → ε'} {a : α} :
    x.mapError g = .ok a ↔ x = .ok a := by
  cases x with
  | error e => exact ⟨nofun, nofun⟩
  | ok a' => exact ⟨fun h => congrArg Except.ok (Except.ok.inj h),
    fun h => congrArg Except.ok (Except.ok.inj h)⟩

/-- An error stands for one under its former name. -/
theorem mapError_eq_error_iff {ε' : Type} {x : Except ε α} {g : ε → ε'} {e : ε'} :
    x.mapError g = .error e ↔ ∃ e', x = .error e' ∧ g e' = e := by
  cases x with
  | error e' => exact ⟨fun h => ⟨e', rfl, Except.error.inj h⟩, fun ⟨_, h, hg⟩ => by
      cases h
      exact congrArg Except.error hg⟩
  | ok a => exact ⟨nofun, nofun⟩

/-- All items succeed, each with its own answer. -/
theorem mapM_eq_ok_iff : l.mapM f = .ok bs ↔ List.Forall₂ (fun a b => f a = .ok b) l bs := by
  induction l generalizing bs with
  | nil =>
    rw [List.mapM_nil, List.forall₂_nil_left_iff]
    exact ⟨fun h => (Except.ok.inj h).symm, fun h => congrArg Except.ok h.symm⟩
  | cons a l ih =>
    rw [List.mapM_cons, List.forall₂_cons_left_iff]
    simp only [← ih]
    cases ha : f a with
    | error e => exact ⟨nofun, nofun⟩
    | ok b =>
      cases hl : l.mapM f with
      | error e => exact ⟨nofun, nofun⟩
      | ok bs' =>
        constructor
        · rintro ⟨⟩
          exact ⟨b, bs', rfl, rfl, rfl⟩
        · rintro ⟨_, _, ⟨⟩, ⟨⟩, rfl⟩
          rfl

/-- Every item has its answer among the answers. -/
theorem exists_of_mapM {a : α} (h : l.mapM f = .ok bs) (ha : a ∈ l) : ∃ b ∈ bs, f a = .ok b := by
  have hall := mapM_eq_ok_iff.1 h
  clear h
  induction hall with
  | nil => cases ha
  | cons hab _ ih =>
    obtain rfl | ha := List.mem_cons.1 ha
    · exact ⟨_, List.mem_cons_self, hab⟩
    · obtain ⟨b, hb, hab⟩ := ih ha
      exact ⟨b, List.mem_cons_of_mem _ hb, hab⟩

/-- Where every item succeeds, all do. -/
theorem mapM_ok (h : ∀ a ∈ l, ∃ b, f a = .ok b) : ∃ bs, l.mapM f = .ok bs := by
  induction l with
  | nil => exact ⟨[], rfl⟩
  | cons a l ih =>
    obtain ⟨b, hb⟩ := h a List.mem_cons_self
    obtain ⟨bs, hbs⟩ := ih fun a ha => h a (List.mem_cons_of_mem _ ha)
    exact ⟨b :: bs, mapM_eq_ok_iff.2 (.cons hb (mapM_eq_ok_iff.1 hbs))⟩

/-- A check fails with an error, where the condition does not hold. -/
def ensure (c : Prop) [Decidable c] (e : ε) : Except ε Unit := if c then .ok () else .error e

/-- A check passes exactly if its condition holds. -/
theorem ensure_eq_ok_iff {c : Prop} [Decidable c] {e : ε} : ensure c e = .ok () ↔ c := by
  rw [ensure]
  split
  · rename_i h
    exact ⟨fun _ => h, fun _ => rfl⟩
  · rename_i h
    exact ⟨nofun, fun hc => absurd hc h⟩

/-- What follows a check succeeds exactly if the condition holds, too. -/
theorem ensure_bind_eq_ok_iff {c : Prop} [Decidable c] {e : ε} {x : Except ε α} {a : α} :
    (do ensure c e; x) = .ok a ↔ c ∧ x = .ok a := by
  rw [bind_eq_ok_iff]
  constructor
  · rintro ⟨_, hc, h⟩
    exact ⟨ensure_eq_ok_iff.1 hc, h⟩
  · rintro ⟨hc, h⟩
    exact ⟨(), ensure_eq_ok_iff.2 hc, h⟩

/-- Checks of all elements pass where each does. -/
theorem forM_eq_ok_iff {f : α → Except ε Unit} : l.forM f = .ok () ↔ ∀ a ∈ l, f a = .ok () := by
  induction l with
  | nil => exact ⟨fun _ => nofun, fun _ => rfl⟩
  | cons a l ih =>
    rw [List.forM_eq_forM] at ih ⊢
    rw [List.forM_cons, bind_eq_ok_iff, List.forall_mem_cons, ← ih]
    constructor
    · rintro ⟨_, ha, hl⟩
      exact ⟨ha, hl⟩
    · rintro ⟨ha, hl⟩
      exact ⟨(), ha, hl⟩

/-- The error of several checks is that of one. -/
theorem mem_of_forM_eq_error {l : List (Except ε Unit)} {e : ε} (h : l.forM (fun x => x) = .error e) :
    .error e ∈ l := by
  induction l with
  | nil => cases h
  | cons x l ih =>
    cases x with
    | error e' =>
      cases h
      exact List.mem_cons_self
    | ok _ => exact List.mem_cons_of_mem _ (ih h)

/-- What may be missing succeeds if it does where it is there. -/
theorem option_mapM_ok {o : Option α} (h : ∀ a ∈ o, ∃ b, f a = .ok b) : ∃ b, o.mapM f = .ok b := by
  rcases o with _ | a
  · exact ⟨none, rfl⟩
  · obtain ⟨b, hb⟩ := h a rfl
    refine ⟨some b, ?_⟩
    rw [Option.mapM_some, hb]
    rfl

/-- What every result keeps of its element is kept of the list. -/
theorem map_of_mapM {g : α → γ} {g' : β → γ} (h : l.mapM f = .ok bs)
    (hkeep : ∀ a b, f a = .ok b → g' b = g a) :
    bs.map g' = l.map g := by
  have hall := mapM_eq_ok_iff.1 h
  clear h
  induction hall with
  | nil => rfl
  | cons hab _ ih => rw [List.map_cons, List.map_cons, hkeep _ _ hab, ih]

/-- Every answer is that of an item. -/
theorem exists_of_mem_mapM {b : β} (h : l.mapM f = .ok bs) (hb : b ∈ bs) : ∃ a ∈ l, f a = .ok b := by
  have hall := mapM_eq_ok_iff.1 h
  clear h
  induction hall with
  | nil => cases hb
  | cons hab _ ih =>
    obtain rfl | hb := List.mem_cons.1 hb
    · exact ⟨_, List.mem_cons_self, hab⟩
    · obtain ⟨a, ha, hab⟩ := ih hb
      exact ⟨a, List.mem_cons_of_mem _ ha, hab⟩

end Traverse
