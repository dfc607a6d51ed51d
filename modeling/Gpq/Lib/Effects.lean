import Mathlib.Logic.Function.Basic

/-!
# Steps that fail and keep what they did

A computation on a state that may fail (`ExceptT ε (StateM σ)`) leaves the state as it was when it
failed: nothing is rolled back.

* `run_bind_fst_ok_iff`: a sequence succeeds where both of its parts do, one behind the other;
* `Keeps`: what holds of the state behind every computation that finds it, however it ends.
-/

namespace Effects

variable {σ ε α β : Type} {x : ExceptT ε (StateM σ) α} {f : α → ExceptT ε (StateM σ) β} {s : σ}

/-- How a computation ends, and the state it leaves. -/
def run (x : ExceptT ε (StateM σ) α) (s : σ) : Except ε α × σ := x s

/-- A computation that has an answer, or fails, without a look at the state. -/
def answer (r : Except ε α) : ExceptT ε (StateM σ) α := ExceptT.mk (pure r)

/-- A step that changes the state, and succeeds. -/
def alter (g : σ → σ) : ExceptT ε (StateM σ) Unit := modify g

@[simp] theorem run_pure (a : α) : run (pure a : ExceptT ε (StateM σ) α) s = (.ok a, s) := rfl

@[simp] theorem run_throw (e : ε) : run (throw e : ExceptT ε (StateM σ) α) s = (.error e, s) := rfl

@[simp] theorem run_answer (r : Except ε α) : run (answer r) s = (r, s) := rfl

@[simp] theorem run_alter (g : σ → σ) :
    run (alter g : ExceptT ε (StateM σ) Unit) s = (.ok (), g s) := rfl

/-- The second part runs from the state that the first leaves, unless the first fails. -/
theorem run_bind : run (x >>= f) s =
    match run x s with
    | (.ok a, s') => run (f a) s'
    | (.error e, s') => (.error e, s') := by
  simp only [run, bind, ExceptT.bind, ExceptT.mk, StateT.bind]
  rcases x s with ⟨_ | a, s'⟩
  · rfl
  · rfl

theorem run_bind_ok {a : α} {s' : σ} (h : run x s = (.ok a, s')) :
    run (x >>= f) s = run (f a) s' := by
  rw [run_bind, h]

theorem run_bind_error {e : ε} {s' : σ} (h : run x s = (.error e, s')) :
    run (x >>= f) s = (.error e, s') := by
  rw [run_bind, h]

/-- A sequence succeeds where both of its parts do. -/
theorem run_bind_fst_ok_iff {b : β} :
    (run (x >>= f) s).1 = .ok b ↔ ∃ a, (run x s).1 = .ok a ∧ (run (f a) (run x s).2).1 = .ok b := by
  rw [run_bind]
  rcases run x s with ⟨_ | a, s'⟩
  · exact ⟨nofun, nofun⟩
  · constructor
    · intro h
      exact ⟨a, rfl, h⟩
    · rintro ⟨_, ⟨⟩, h⟩
      exact h

/-- However the computation ends, it leaves `P` where it finds it. -/
def Keeps (P : σ → Prop) (x : ExceptT ε (StateM σ) α) : Prop := ∀ s, P s → P (run x s).2

variable {P : σ → Prop}

theorem keeps_pure (a : α) : Keeps P (pure a : ExceptT ε (StateM σ) α) := fun _ hs => hs

theorem keeps_throw (e : ε) : Keeps P (throw e : ExceptT ε (StateM σ) α) := fun _ hs => hs

theorem keeps_answer (r : Except ε α) : Keeps P (answer r : ExceptT ε (StateM σ) α) := fun _ hs => hs

theorem keeps_alter {g : σ → σ} (hg : ∀ s, P s → P (g s)) :
    Keeps P (alter g : ExceptT ε (StateM σ) Unit) := hg

/-- A property that both parts keep is kept. -/
theorem keeps_bind (hx : Keeps P x) (hf : ∀ a, Keeps P (f a)) : Keeps P (x >>= f) := by
  intro s hs
  have hs' := hx s hs
  rw [run_bind]
  generalize run x s = r at hs'
  rcases r with ⟨_ | a, s'⟩
  · exact hs'
  · exact hf a s' hs'

end Effects
