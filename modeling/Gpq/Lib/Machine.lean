import Mathlib.Logic.Relation

/-!
# Runs and invariants

The states that a transition system reaches, and the two rules its safety results
are proved by: an invariant that holds initially and along every step holds in
every reachable state (`Reachable.invariant`), and what every step preserves is
preserved along whole runs (`Machine.preserved_of_path`). A run of a step function
over a list of events (`Machine.run`) reaches only reachable states.

`Evolves` is one change of a family of machines that come and go. A machine that is
there at both ends of a run has made steps of its own, and nothing else, where the
run first only adds machines and then only removes some (`Evolves.steps`).
-/

namespace Machine

variable {σ ε : Type*}

/-- The states reached from an initial state by steps of `next`. -/
inductive Reachable (init : σ → Prop) (next : σ → σ → Prop) : σ → Prop
  | init {s : σ} (h : init s) : Reachable init next s
  | step {s s' : σ} (hs : Reachable init next s) (h : next s s') : Reachable init next s'

namespace Reachable

variable {init : σ → Prop} {next next' : σ → σ → Prop} {s s' : σ}

/-- An invariant may use that the state it is preserved from is reachable. -/
theorem invariant {I : σ → Prop} (h₀ : ∀ s, init s → I s)
    (h : ∀ s s', Reachable init next s → I s → next s s' → I s') (hs : Reachable init next s) :
    I s := by
  induction hs with
  | init hi => exact h₀ _ hi
  | step hs hn ih => exact h _ _ hs ih hn

/-- A system with more steps reaches more. -/
theorem mono (h : ∀ s s', next s s' → next' s s') (hs : Reachable init next s) :
    Reachable init next' s := by
  induction hs with
  | init hi => exact .init hi
  | step _ hn ih => exact .step ih (h _ _ hn)

/-- A system that starts in more states reaches more. -/
theorem mono_init {init' : σ → Prop} (h : ∀ s, init s → init' s) (hs : Reachable init next s) :
    Reachable init' next s := by
  induction hs with
  | init hi => exact .init (h _ hi)
  | step _ hn ih => exact .step ih hn

/-- A run continues a run. -/
theorem trans (hs : Reachable init next s) (h : Relation.ReflTransGen next s s') :
    Reachable init next s' := by
  induction h with
  | refl => exact hs
  | tail _ hn ih => exact .step ih hn

end Reachable

/-- A predicate preserved by every step is preserved along a whole path. -/
theorem preserved_of_path {next : σ → σ → Prop} {I : σ → Prop}
    (h : ∀ s s', I s → next s s' → I s') {s s' : σ} (hs : I s)
    (hp : Relation.ReflTransGen next s s') : I s' := by
  induction hp with
  | refl => exact hs
  | tail _ hn ih => exact h _ _ ih hn

/-- One step of a step function, where the event is allowed. -/
def Fires (step : ε → σ → σ) (allowed : ε → σ → Prop) (s s' : σ) : Prop :=
  ∃ e, allowed e s ∧ s' = step e s

/-- A run of a step function over a list of events. -/
def run (step : ε → σ → σ) (s : σ) (es : List ε) : σ := es.foldl (fun s e => step e s) s

/-- Every event of the list is allowed in the state where it happens. -/
def Allowed (step : ε → σ → σ) (allowed : ε → σ → Prop) : σ → List ε → Prop
  | _, [] => True
  | s, e :: es => allowed e s ∧ Allowed step allowed (step e s) es

instance decidableAllowed (step : ε → σ → σ) (allowed : ε → σ → Prop)
    [∀ e s, Decidable (allowed e s)] : ∀ s es, Decidable (Allowed step allowed s es)
  | _, [] => inferInstanceAs (Decidable True)
  | s, e :: es => @instDecidableAnd _ _ _ (decidableAllowed step allowed (step e s) es)

/-- Where everything is allowed, every run is. -/
theorem allowed_of_forall {step : ε → σ → σ} {allowed : ε → σ → Prop} (h : ∀ e s, allowed e s) :
    ∀ s es, Allowed step allowed s es
  | _, [] => trivial
  | s, e :: es => ⟨h e s, allowed_of_forall h (step e s) es⟩

/-- A run that is allowed is so under a weaker condition. -/
theorem allowed_mono {step : ε → σ → σ} {allowed allowed' : ε → σ → Prop}
    (h : ∀ e s, allowed e s → allowed' e s) :
    ∀ s es, Allowed step allowed s es → Allowed step allowed' s es
  | _, [], _ => trivial
  | s, e :: es, hes => ⟨h e s hes.1, allowed_mono h (step e s) es hes.2⟩

/-- Conditions that agree allow the same runs. -/
theorem allowed_congr {step : ε → σ → σ} {allowed allowed' : ε → σ → Prop}
    (h : ∀ e s, allowed e s ↔ allowed' e s) (s : σ) (es : List ε) :
    Allowed step allowed s es ↔ Allowed step allowed' s es :=
  ⟨allowed_mono (fun e s => (h e s).1) s es, allowed_mono (fun e s => (h e s).2) s es⟩

/-- A run of allowed events is a path. -/
theorem path_run {step : ε → σ → σ} {allowed : ε → σ → Prop} {s : σ} (es : List ε)
    (h : Allowed step allowed s es) :
    Relation.ReflTransGen (Fires step allowed) s (run step s es) := by
  induction es generalizing s with
  | nil => exact .refl
  | cons e es ih => exact .head ⟨e, h.1, rfl⟩ (ih h.2)

/-- A run of allowed events ends in a reachable state. -/
theorem reachable_run {init : σ → Prop} {step : ε → σ → σ} {allowed : ε → σ → Prop} {s : σ}
    (hs : Reachable init (Fires step allowed) s) (es : List ε) (h : Allowed step allowed s es) :
    Reachable init (Fires step allowed) (run step s es) :=
  hs.trans (path_run es h)

/-! ## Families of machines -/

section Families

variable {K S : Type*} {step : S → S → Prop} {grows shrinks : Prop}

/-- What may happen to one machine of a family: it stays or makes a step; it is new,
    if the family `grows`; it goes, if the family `shrinks`. -/
inductive Change (step : S → S → Prop) (grows shrinks : Prop) : Option S → Option S → Prop
  | same (o : Option S) : Change step grows shrinks o o
  | edge {s s' : S} (h : step s s') : Change step grows shrinks (some s) (some s')
  | new (h : grows) (s : S) : Change step grows shrinks none (some s)
  | gone (h : shrinks) (s : S) : Change step grows shrinks (some s) none

/-- A machine that is there before and after stayed or made a step. -/
theorem Change.eq_or_step {s s' : S} (h : Change step grows shrinks (some s) (some s')) :
    s' = s ∨ step s s' := by
  cases h with
  | same => exact .inl rfl
  | edge h => exact .inr h

/-- One change of a family of machines. -/
def Evolves (step : S → S → Prop) (grows shrinks : Prop) (m m' : K → Option S) : Prop :=
  ∀ k, Change step grows shrinks (m k) (m' k)

/-- Where no machine goes, every machine is still there, after steps of its own. -/
theorem Evolves.kept {m m' : K → Option S} (h : Relation.ReflTransGen (Evolves step True False) m m')
    {k : K} {s : S} (hs : m k = some s) : ∃ s', m' k = some s' ∧ Relation.ReflTransGen step s s' := by
  induction h with
  | refl => exact ⟨s, hs, .refl⟩
  | @tail m₁ m₂ _ hstep ih =>
    obtain ⟨s₁, hs₁, hpath⟩ := ih
    have hk := hstep k
    rw [hs₁] at hk
    generalize m₂ k = o at hk
    cases hk with
    | same => exact ⟨s₁, rfl, hpath⟩
    | edge h => exact ⟨_, rfl, hpath.tail h⟩
    | gone h => cases h

/-- Where no machine is new, every machine was there before, and made steps of its own. -/
theorem Evolves.was {m m' : K → Option S} (h : Relation.ReflTransGen (Evolves step False True) m m')
    {k : K} {s' : S} (hs' : m' k = some s') :
    ∃ s, m k = some s ∧ Relation.ReflTransGen step s s' := by
  induction h using Relation.ReflTransGen.head_induction_on with
  | refl => exact ⟨s', hs', .refl⟩
  | @head m₁ m₂ hstep _ ih =>
    obtain ⟨s₂, hs₂, hpath⟩ := ih
    have hk := hstep k
    rw [hs₂] at hk
    generalize m₁ k = o at hk
    cases hk with
    | same => exact ⟨s₂, rfl, hpath⟩
    | edge h => exact ⟨_, rfl, hpath.head h⟩
    | new h => cases h

/-- A machine that is there at both ends of a run that first only adds machines and
    then only removes some has made steps of its own. -/
theorem Evolves.steps {m m₁ m' : K → Option S}
    (hgrow : Relation.ReflTransGen (Evolves step True False) m m₁)
    (hshrink : Relation.ReflTransGen (Evolves step False True) m₁ m') {k : K} {s s' : S}
    (hs : m k = some s) (hs' : m' k = some s') : Relation.ReflTransGen step s s' := by
  obtain ⟨s₁, hs₁, hpath⟩ := Evolves.kept hgrow hs
  obtain ⟨s₂, hs₂, hpath'⟩ := Evolves.was hshrink hs'
  obtain rfl : s₁ = s₂ := Option.some_inj.1 (hs₁.symm.trans hs₂)
  exact hpath.trans hpath'

end Families

end Machine
