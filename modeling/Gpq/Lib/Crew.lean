import Gpq.Lib.Routine

/-!
# Crews

Routines that run side by side on one state, in a process that may crash between any two of their
steps. What is under way is gone then, and the state stays. A process boots with a routine that runs
alone, and serves where that says so. A task may be dropped anywhere.

A `Regime` says of each kind of task what it may do (`guar`) and what it leaves to others (`rely`).
Where every task keeps to it, `inv` holds in every run (`Regime.invariant`).
-/

open Relation (ReflTransGen)

namespace Routine

variable {σ ι : Type}

/-- A process: its state, the routine that boots it, and the tasks that are under way, by their
    kinds. -/
structure Crew (σ ι : Type) : Type 1 where
  state : σ
  booting : Option (Routine σ Bool)
  tasks : List (ι × Routine σ Unit)

namespace Crew

/-- One step of a process: it crashes and boots anew, makes a step of its boot, serves behind it,
    starts a task, makes a step of one, or drops one. -/
inductive Next (boots : Routine σ Bool → Prop) (ops : σ → ι → Routine σ Unit → σ → Prop) :
    Crew σ ι → Crew σ ι → Prop
  | crash {s b ts r} (h : boots r) : Next boots ops ⟨s, b, ts⟩ ⟨s, some r, []⟩
  | boot {s s' r r'} (h : Step s r s' r') : Next boots ops ⟨s, some r, []⟩ ⟨s', some r', []⟩
  | serve {s} : Next boots ops ⟨s, some (.done true), []⟩ ⟨s, none, []⟩
  | spawn {s s' ts i r} (h : ops s i r s') : Next boots ops ⟨s, none, ts⟩ ⟨s', none, (i, r) :: ts⟩
  | step {s s' ts ts' i r r'} (h : Step s r s' r') :
    Next boots ops ⟨s, none, ts ++ (i, r) :: ts'⟩ ⟨s', none, ts ++ (i, r') :: ts'⟩
  | dropped {s ts ts' t} : Next boots ops ⟨s, none, ts ++ t :: ts'⟩ ⟨s, none, ts ++ ts'⟩

/-- The processes that are reached from `init`. -/
abbrev Reachable (init : Crew σ ι → Prop) (boots : Routine σ Bool → Prop)
    (ops : σ → ι → Routine σ Unit → σ → Prop) : Crew σ ι → Prop :=
  Machine.Reachable init (Next boots ops)

variable {ops : σ → ι → Routine σ Unit → σ → Prop}

/-- A boot that ends is a run. -/
theorem run_boot (boots : Routine σ Bool → Prop) (ops : σ → ι → Routine σ Unit → σ → Prop)
    {r : Routine σ Bool} {s s' : σ} {b : Bool} (h : Ends r s b s') :
    ReflTransGen (Next boots ops) ⟨s, some r, []⟩ ⟨s', some (.done b), []⟩ := by
  induction h with
  | done => exact .refl
  | step hstep _ ih => exact ih.head (.boot hstep)

/-- A task that is started, and ends, is a run. -/
theorem run_task (boots : Routine σ Bool → Prop) {r : Routine σ Unit} {s s' s'' : σ} {i : ι}
    {a : Unit} (hspawn : ops s i r s') (h : Ends r s' a s'') (ts : List (ι × Routine σ Unit)) :
    ReflTransGen (Next boots ops) ⟨s, none, ts⟩ ⟨s'', none, (i, .done a) :: ts⟩ := by
  have hrun : ReflTransGen (Next boots ops) ⟨s', none, [] ++ (i, r) :: ts⟩
      ⟨s'', none, [] ++ (i, .done a) :: ts⟩ := by
    clear hspawn
    induction h with
    | done => exact .refl
    | step hstep _ ih => exact ih.head (.step hstep)
  exact hrun.head (.spawn hspawn)

end Crew

/-- What holds of a state, and what the kinds of tasks may do to it and leave to each other. -/
structure Regime (σ ι : Type) where
  inv : σ → Prop
  /-- What is known of the state as long as a task of this kind is under way. -/
  known : ι → σ → Prop
  rely : ι → σ → σ → Prop
  guar : ι → σ → σ → Prop
  /-- Tasks of these kinds may be under way at once. -/
  apart : ι → ι → Prop
  symm : ∀ {i j}, apart i j → apart j i
  rely_guar : ∀ {i j s s'}, apart i j → guar i s s' → rely j s s'
  known_guar : ∀ {i j s s'}, guar i s s' → known j s → known j s'

namespace Regime

variable {R : Regime σ ι} {i : ι} {s s' : σ}

/-- Steps that keep to the regime. -/
def Lawful (R : Regime σ ι) (i : ι) (s s' : σ) : Prop := R.guar i s s' ∧ (R.inv s → R.inv s')

/-- A task keeps to the regime, whatever the others do. -/
abbrev Runs (R : Regime σ ι) {α : Type} (i : ι) (r : Routine σ α) (Q : α → σ → Prop) : σ → Prop :=
  Wp (R.rely i) (R.Lawful i) (fun _ => True) r Q

/-- A routine keeps the invariant, alone. -/
abbrev Alone (R : Regime σ ι) {α : Type} (r : Routine σ α) (Q : α → σ → Prop) : σ → Prop :=
  Wp (fun _ _ => False) (fun s s' => R.inv s → R.inv s') (fun _ => True) r Q

/-- What is asked of a task that is started. -/
structure Admits (R : Regime σ ι) (s : σ) (i : ι) (r : Routine σ Unit) (s' : σ) : Prop where
  apart : ∀ j, R.known j s → R.apart i j
  known : R.known i s'
  knows : ∀ j, R.known j s → R.known j s'
  rely : ∀ j, R.known j s → R.rely j s s'
  inv : R.inv s → R.inv s'
  runs : R.inv s → R.Runs i r (fun _ _ => True) s'

/-- What holds of a process in every run. -/
structure Ok (R : Regime σ ι) (c : Crew σ ι) : Prop where
  inv : R.inv c.state
  boots : ∀ r, c.booting = some r → R.Alone r (fun _ _ => True) c.state
  known : ∀ t ∈ c.tasks, R.known t.1 c.state
  runs : ∀ t ∈ c.tasks, R.Runs t.1 t.2 (fun _ _ => True) c.state
  apart : (c.tasks.map Prod.fst).Pairwise R.apart

variable {boots : Routine σ Bool → Prop} {ops : σ → ι → Routine σ Unit → σ → Prop} {c c' : Crew σ ι}

/-- Every step of the crew keeps that each task can go on whatever the others do: what a task does
    is what the tasks that are apart from it expect. -/
theorem Ok.next (hboots : ∀ s r, R.inv s → boots r → R.Alone r (fun _ _ => True) s)
    (hops : ∀ s i r s', ops s i r s' → R.Admits s i r s') (hc : R.Ok c)
    (h : Crew.Next boots ops c c') : R.Ok c' := by
  cases h with
  | crash h =>
    exact ⟨hc.inv, fun r hr => Option.some.inj hr ▸ hboots _ _ hc.inv h, List.forall_mem_nil _,
      List.forall_mem_nil _, .nil⟩
  | boot h =>
    obtain ⟨hinv, hrest⟩ := (hc.boots _ rfl).step h
    exact ⟨hinv hc.inv, fun r hr => Option.some.inj hr ▸ hrest, List.forall_mem_nil _,
      List.forall_mem_nil _, .nil⟩
  | serve => exact ⟨hc.inv, fun r hr => absurd hr.symm (Option.some_ne_none r), hc.known, hc.runs,
    hc.apart⟩
  | @spawn s s' ts i r h =>
    -- a new task is apart from those that run, and they from it
    have hadmits := hops _ _ _ _ h
    refine ⟨hadmits.inv hc.inv, fun r hr => absurd hr.symm (Option.some_ne_none r), ?_, ?_, ?_⟩
    · exact List.forall_mem_cons.2 ⟨hadmits.known, fun t ht => hadmits.knows _ (hc.known t ht)⟩
    · refine List.forall_mem_cons.2 ⟨hadmits.runs hc.inv, fun t ht => ?_⟩
      exact Wp.among (fun _ _ _ h _ => h) (hc.runs t ht) (hadmits.rely _ (hc.known t ht))
    · refine List.pairwise_cons.2 ⟨fun j hj => ?_, hc.apart⟩
      obtain ⟨t, ht, rfl⟩ := List.mem_map.1 hj
      exact hadmits.apart _ (hc.known t ht)
  | @step s s' ts ts' i r r' h =>
    -- a task makes a step
    obtain ⟨⟨hguar, hinv⟩, hrest⟩ := (hc.runs (i, r) (by simp)).step h
    -- the kinds stay as they are, and the other tasks are apart from this one
    have hapart : ((ts ++ (i, r') :: ts').map Prod.fst).Pairwise R.apart := by
      have := hc.apart
      simpa only [List.map_append, List.map_cons] using this
    have hothers : ∀ t ∈ ts ++ ts', R.apart i t.1 := by
      have hpairs := hc.apart
      simp only [List.map_append, List.map_cons, List.pairwise_append, List.pairwise_cons] at hpairs
      intro t ht
      rcases List.mem_append.1 ht with ht | ht
      · exact R.symm (hpairs.2.2 _ (List.mem_map_of_mem ht) _ (List.mem_cons_self ..))
      · exact hpairs.2.1.1 _ (List.mem_map_of_mem ht)
    refine ⟨hinv hc.inv, fun r hr => absurd hr.symm (Option.some_ne_none r), fun t ht => ?_,
      fun t ht => ?_, hapart⟩
    · rcases List.mem_append.1 ht with ht | ht
      · exact R.known_guar hguar (hc.known t (List.mem_append_left _ ht))
      · rcases List.mem_cons.1 ht with rfl | ht
        · exact R.known_guar hguar (hc.known (i, r) (by simp))
        · exact R.known_guar hguar (hc.known t (by simp [ht]))
    · have hother : ∀ t ∈ ts ++ ts', R.Runs t.1 t.2 (fun _ _ => True) s' := fun t ht =>
        Wp.among (fun _ _ _ h _ => h) (hc.runs t (by
          rcases List.mem_append.1 ht with ht | ht
          · exact List.mem_append_left _ ht
          · exact List.mem_append_right _ (List.mem_cons_of_mem _ ht)))
              (R.rely_guar (hothers t ht) hguar)
      rcases List.mem_append.1 ht with ht | ht
      · exact hother t (List.mem_append_left _ ht)
      · rcases List.mem_cons.1 ht with rfl | ht
        · exact hrest
        · exact hother t (List.mem_append_right _ ht)
  | @dropped s ts ts' t =>
    -- a task that is dropped is not missed
    have hsub : (ts ++ ts').Sublist (ts ++ t :: ts') := (List.sublist_cons_self t ts').append_left ts
    exact ⟨hc.inv, fun r hr => absurd hr.symm (Option.some_ne_none r),
      fun t ht => hc.known t (hsub.subset ht),
      fun t ht => hc.runs t (hsub.subset ht), hc.apart.sublist (hsub.map _)⟩

/-- Where every task keeps to the regime, and the boot keeps the invariant, it holds in every run. -/
theorem invariant {init : Crew σ ι → Prop} (hinit : ∀ c, init c → R.Ok c)
    (hboots : ∀ s r, R.inv s → boots r → R.Alone r (fun _ _ => True) s)
    (hops : ∀ s i r s', ops s i r s' → R.Admits s i r s') (hc : Crew.Reachable init boots ops c) :
    R.inv c.state :=
  (Machine.Reachable.invariant (I := R.Ok) hinit (fun _ _ _ => Ok.next hboots hops) hc).inv

end Regime

end Routine
