import Gpq.Lib.Machine

/-!
# Routines

An asynchronous program on a state that others change as well: critical sections, each taken in
one go, and awaits. At an await the surroundings answer, or the program is dropped, and what the
values on its stack do when they are dropped is all that is left of it.

The programs of one lock run one at a time (`Locked`), among changes that do not ask for the lock
(`rely`). What is proved about them rests on weakest preconditions (`Wp`) that hold whatever others
do between two of their steps:

* `wp_bind`: a routine, and what is done with its answer;
* `wp_locked`, `wp_await`: one step, from an assertion that others keep;
* `wpOr_bind`: a routine that may fail, and what is done where it succeeds (`WpOr`);
* `wp_frame`: what neither its steps nor others change;
* `Locked.invariant`: what every routine keeps, however it is dropped, holds whenever the lock is
  free, and what holds at each of their steps holds always.

What a routine brings about with the right answers (`Can`) comes about in a run (`Locked.exists_run`).
-/

open Relation (ReflTransGen)

/-- An asynchronous program that ends with an `α`. -/
inductive Routine (σ α : Type) : Type 1
  | done (a : α)
  /-- A critical section. -/
  | critical {β : Type} (x : σ → β × σ) (k : β → Routine σ α)
  /-- A choice of the surroundings that comes at once. -/
  | choose {β : Type} (k : β → Routine σ α)
  /-- An await: what its answer changes and gives, and what is changed when it is dropped there. -/
  | await {β γ : Type} (effect : β → σ → γ × σ) (onDrop : σ → σ) (k : γ → Routine σ α)

namespace Routine

variable {σ α β : Type}

/-- One routine after another, which goes on with the answer of the first. -/
def bind : Routine σ α → (α → Routine σ β) → Routine σ β
  | done a, g => g a
  | critical x k, g => critical x fun b => (k b).bind g
  | choose k, g => choose fun b => (k b).bind g
  | await effect onDrop k, g => await effect onDrop fun c => (k c).bind g

instance : Monad (Routine σ) where
  pure := done
  bind := bind

/-- One critical section. -/
def locked (x : σ → α × σ) : Routine σ α := critical x done

/-- A critical section that only changes the state. -/
def alter (f : σ → σ) : Routine σ Unit := locked fun s => ((), f s)

/-- A critical section that only reads the state. -/
def look (f : σ → α) : Routine σ α := locked fun s => (f s, s)

/-- Something that the surroundings choose. -/
def chosen (α : Type) : Routine σ α := choose done

/-- An await of an answer that changes nothing, with nothing to drop. -/
def answer (α : Type) : Routine σ α := await Prod.mk id done

/-! ## Weakest preconditions -/

section Wp

variable (rely guar : σ → σ → Prop) (dropped : σ → Prop)

/-- Whatever others do between its steps, each step of the routine is one that `guar` allows, the
    routine leaves `dropped` where it is dropped, and ends with an answer and a state that `Q`
    accepts. -/
def Wp : Routine σ α → (α → σ → Prop) → σ → Prop
  | done a, Q, s => Q a s
  | critical x k, Q, s => ∀ s', ReflTransGen rely s s' → guar s' (x s').2 ∧ Wp (k (x s').1) Q (x s').2
  | choose k, Q, s => ∀ s', ReflTransGen rely s s' → guar s' s' ∧ ∀ b, Wp (k b) Q s'
  | await effect onDrop k, Q, s => ∀ s', ReflTransGen rely s s' → guar s' s' ∧ dropped (onDrop s') ∧
      ∀ b, guar s' (effect b s').2 ∧ Wp (k (effect b s').1) Q (effect b s').2

end Wp

variable {rely guar : σ → σ → Prop} {dropped : σ → Prop}

/-- A postcondition may be replaced by a weaker one. -/
theorem wp_mono {Q Q' : α → σ → Prop} (hQ : ∀ a s, Q a s → Q' a s) {r : Routine σ α} :
    ∀ {s}, Wp rely guar dropped r Q s → Wp rely guar dropped r Q' s := by
  induction r with
  | done a => exact hQ a _
  | critical x k ih => exact fun h s' hs' => ⟨(h s' hs').1, ih _ (h s' hs').2⟩
  | choose k ih => exact fun h s' hs' => ⟨(h s' hs').1, fun b => ih b ((h s' hs').2 b)⟩
  | await effect onDrop k ih =>
    exact fun h s' hs' => ⟨(h s' hs').1, (h s' hs').2.1, fun b =>
      ⟨((h s' hs').2.2 b).1, ih _ ((h s' hs').2.2 b).2⟩⟩

/-- A routine meets both of what it meets. -/
theorem Wp.and {guar' : σ → σ → Prop} {dropped' : σ → Prop} {Q Q' : α → σ → Prop} {r : Routine σ α} :
    ∀ {s}, Wp rely guar dropped r Q s → Wp rely guar' dropped' r Q' s →
      Wp rely guar dropped r (fun a s => Q a s ∧ Q' a s) s := by
  induction r with
  | done a => exact fun h h' => ⟨h, h'⟩
  | critical x k ih => exact fun h h' s' hs' => ⟨(h s' hs').1, ih _ (h s' hs').2 (h' s' hs').2⟩
  | choose k ih => exact fun h h' s' hs' => ⟨(h s' hs').1,
    fun b => ih b ((h s' hs').2 b) ((h' s' hs').2 b)⟩
  | await effect onDrop k ih =>
    exact fun h h' s' hs' => ⟨(h s' hs').1, (h s' hs').2.1, fun b =>
      ⟨((h s' hs').2.2 b).1, ih _ ((h s' hs').2.2 b).2 ((h' s' hs').2.2 b).2⟩⟩

/-- A sequence meets what its first part meets, where the rest meets it from there. -/
theorem wp_bind {r : Routine σ α} {g : α → Routine σ β} {Q : β → σ → Prop} :
    ∀ {s}, Wp rely guar dropped r (fun a => Wp rely guar dropped (g a) Q) s →
    Wp rely guar dropped (r >>= g) Q s := by
  induction r with
  | done a => exact id
  | critical x k ih => exact fun h s' hs' => ⟨(h s' hs').1, ih _ (h s' hs').2⟩
  | choose k ih => exact fun h s' hs' => ⟨(h s' hs').1, fun b => ih b ((h s' hs').2 b)⟩
  | await effect onDrop k ih =>
    exact fun h s' hs' => ⟨(h s' hs').1, (h s' hs').2.1, fun b =>
      ⟨((h s' hs').2.2 b).1, ih _ ((h s' hs').2.2 b).2⟩⟩

/-- Others keep an assertion along all that they do. -/
theorem stable_path {P : σ → Prop} (hP : ∀ s s', P s → rely s s' → P s') {s s' : σ} (hs : P s)
    (h : ReflTransGen rely s s') : P s' := Machine.preserved_of_path hP hs h

/-- A critical section, which finds what others keep. -/
theorem wp_locked {P : σ → Prop} {x : σ → α × σ} {Q : α → σ → Prop} {s : σ}
    (hP : ∀ s s', P s → rely s s' → P s') (hs : P s) (hguar : ∀ s, P s → guar s (x s).2)
    (h : ∀ s, P s → Q (x s).1 (x s).2) : Wp rely guar dropped (locked x) Q s :=
  fun s' hs' => ⟨hguar s' (stable_path hP hs hs'), h s' (stable_path hP hs hs')⟩

/-- A change of the state, which finds what others keep. -/
theorem wp_alter {P : σ → Prop} {f : σ → σ} {Q : Unit → σ → Prop} {s : σ}
    (hP : ∀ s s', P s → rely s s' → P s') (hs : P s) (hguar : ∀ s, P s → guar s (f s))
    (h : ∀ s, P s → Q () (f s)) :
    Wp rely guar dropped (alter f) Q s :=
  wp_locked hP hs hguar h

theorem wp_look {P : σ → Prop} {f : σ → α} {Q : α → σ → Prop} {s : σ}
    (hP : ∀ s s', P s → rely s s' → P s') (hs : P s) (hguar : ∀ s, P s → guar s s)
    (h : ∀ s, P s → Q (f s) s) :
    Wp rely guar dropped (look f) Q s :=
  wp_locked hP hs hguar h

theorem wp_chosen {P : σ → Prop} {Q : α → σ → Prop} {s : σ} (hP : ∀ s s', P s → rely s s' → P s')
    (hs : P s)
    (hguar : ∀ s, P s → guar s s) (h : ∀ a s, P s → Q a s) : Wp rely guar dropped (chosen α) Q s :=
  fun s' hs' => ⟨hguar s' (stable_path hP hs hs'), fun a => h a s' (stable_path hP hs hs')⟩

/-- An await that does something to the state once it is answered; it finds what others keep, and
    may be dropped before. -/
theorem wp_await {γ : Type} {P : σ → Prop} {effect : β → σ → γ × σ} {onDrop : σ → σ}
    {k : γ → Routine σ α} {Q : α → σ → Prop} {s : σ} (hP : ∀ s s', P s → rely s s' → P s')
    (hs : P s)
    (hguar : ∀ s, P s → guar s s) (hdrop : ∀ s, P s → dropped (onDrop s))
    (h : ∀ b s, P s → guar s (effect b s).2 ∧
      Wp rely guar dropped (k (effect b s).1) Q (effect b s).2) :
    Wp rely guar dropped (await effect onDrop k) Q s :=
  fun s' hs' =>
    have hs' := stable_path hP hs hs'
    ⟨hguar s' hs', hdrop s' hs', fun b => h b s' hs'⟩

/-- An await that only gets an answer. -/
theorem wp_answer {P : σ → Prop} {Q : α → σ → Prop} {s : σ} (hP : ∀ s s', P s → rely s s' → P s')
    (hs : P s) (hguar : ∀ s, P s → guar s s) (hdrop : ∀ s, P s → dropped s)
    (h : ∀ a s, P s → Q a s) :
    Wp rely guar dropped (answer α) Q s :=
  wp_await hP hs hguar hdrop fun a s hs => ⟨hguar s hs, h a s hs⟩

/-- What a routine meets, it meets after what others did first. -/
theorem Wp.among {Q : α → σ → Prop} (hQ : ∀ a s s', Q a s → rely s s' → Q a s') {r : Routine σ α}
    {s s' : σ}
    (h : Wp rely guar dropped r Q s) (hs' : rely s s') : Wp rely guar dropped r Q s' := by
  cases r with
  | done a => exact hQ a s s' h hs'
  | critical x k => exact fun s'' hs'' => h s'' (hs''.head hs')
  | choose k => exact fun s'' hs'' => h s'' (hs''.head hs')
  | await effect onDrop k => exact fun s'' hs'' => h s'' (hs''.head hs')

theorem wp_map {r : Routine σ α} {f : α → β} {Q : β → σ → Prop} {s : σ}
    (h : Wp rely guar dropped r (fun a => Q (f a)) s) : Wp rely guar dropped (f <$> r) Q s :=
  wp_bind h

theorem wp_discard {r : Routine σ α} {Q : Unit → σ → Prop} {s : σ}
    (h : Wp rely guar dropped r (fun _ => Q ()) s) :
    Wp rely guar dropped (discard r) Q s := wp_bind h

/-! ## Routines that may fail -/

section Outcomes

variable {ε : Type} {x : ExceptT ε (Routine σ) α} {s : σ}

/-- A success that `P` accepts, or a failure that `E` accepts. -/
def Outcome (P : α → σ → Prop) (E : ε → σ → Prop) : Except ε α → σ → Prop
  | .ok a, s => P a s
  | .error error, s => E error s

/-- A routine that may fail ends with an outcome that is accepted. -/
abbrev WpOr (rely guar : σ → σ → Prop) (dropped : σ → Prop) (x : ExceptT ε (Routine σ) α)
    (P : α → σ → Prop)
    (E : ε → σ → Prop) : σ → Prop :=
  Wp rely guar dropped x.run (Outcome P E)

variable {P : α → σ → Prop} {E : ε → σ → Prop}

theorem wpOr_pure {a : α} (h : P a s) : WpOr rely guar dropped (pure a) P E s := h

/-- The second part of a routine that may fail runs where the first succeeds. -/
theorem wpOr_bind {f : α → ExceptT ε (Routine σ) β} {P : β → σ → Prop}
    (h : WpOr rely guar dropped x (fun a => WpOr rely guar dropped (f a) P E) E s) :
    WpOr rely guar dropped (x >>= f) P E s := by
  refine wp_bind (wp_mono (fun r s hr => ?_) h)
  cases r with
  | ok a => exact hr
  | error error => exact hr

/-- A routine that may fail, and from wherever it succeeds the rest. -/
theorem wpOr_seq {f : α → ExceptT ε (Routine σ) β} {P' : β → σ → Prop}
    (h : WpOr rely guar dropped x P E s) (hf : ∀ a s, P a s → WpOr rely guar dropped (f a) P' E s) :
    WpOr rely guar dropped (x >>= f) P' E s := by
  refine wpOr_bind (wp_mono (fun r s hr => ?_) h)
  cases r with
  | ok a => exact hf a s hr
  | error error => exact hr

theorem wpOr_lift {r : Routine σ α} (h : Wp rely guar dropped r P s) :
    WpOr rely guar dropped (ExceptT.lift r) P E s :=
  wp_bind h

/-- What is said of successes and of failures may be replaced by something weaker. -/
theorem wpOr_mono {P' : α → σ → Prop} {E' : ε → σ → Prop} (hP : ∀ a s, P a s → P' a s)
    (hE : ∀ error s, E error s → E' error s) (h : WpOr rely guar dropped x P E s) :
    WpOr rely guar dropped x P' E' s := by
  refine wp_mono (fun r s hr => ?_) h
  cases r with
  | ok a => exact hP a s hr
  | error error => exact hE error s hr

/-- The failures go under other names. -/
theorem wpOr_adapt {ε' : Type} {f : ε → ε'} {E : ε' → σ → Prop}
    (h : WpOr rely guar dropped x P (fun error => E (f error)) s) :
    WpOr rely guar dropped (ExceptT.adapt f x) P E s := by
  refine wp_map (wp_mono (fun r s hr => ?_) h)
  cases r with
  | ok a => exact hr
  | error error => exact hr

end Outcomes

/-! ## Steps -/

/-- A step of a routine. -/
inductive Step : σ → Routine σ α → σ → Routine σ α → Prop
  | critical {β : Type} {s : σ} (x : σ → β × σ) (k) : Step s (.critical x k) (x s).2 (k (x s).1)
  | chosen {β : Type} {s : σ} (k : β → Routine σ α) (b : β) : Step s (.choose k) s (k b)
  | answered {β γ : Type} {s : σ} (effect : β → σ → γ × σ) (onDrop k) (b : β) :
    Step s (.await effect onDrop k) (effect b s).2 (k (effect b s).1)

/-- A step is one that is allowed, and the rest of the routine meets what is left. -/
theorem Wp.step {Q : α → σ → Prop} {r r' : Routine σ α} {s s' : σ} (h : Wp rely guar dropped r Q s)
    (hstep : Step s r s' r') : guar s s' ∧ Wp rely guar dropped r' Q s' := by
  cases hstep with
  | critical x k => exact h s .refl
  | chosen k b => exact ⟨(h s .refl).1, (h s .refl).2 b⟩
  | answered effect onDrop k b => exact (h s .refl).2.2 b

/-- The routine, alone, may end with this answer in this state. -/
inductive Ends : Routine σ α → σ → α → σ → Prop
  | done {a : α} {s : σ} : Ends (.done a) s a s
  | step {r r' : Routine σ α} {s s' t : σ} {a : α} (h : Step s r s' r') (hend : Ends r' s' a t) :
    Ends r s a t

/-- Where a routine ends, what it meets is accepted. -/
theorem Wp.ends {Q : α → σ → Prop} {r : Routine σ α} {s s' : σ} {a : α}
    (h : Wp rely guar dropped r Q s)
    (hend : Ends r s a s') : Q a s' := by
  induction hend with
  | done => exact h
  | step hstep _ ih => exact ih (h.step hstep).2

/-- The routine may end with this answer in this state, among what others do. -/
inductive EndsAmong (rely : σ → σ → Prop) : Routine σ α → σ → α → σ → Prop
  | done {a : α} {s : σ} : EndsAmong rely (.done a) s a s
  | around {r : Routine σ α} {s s' t : σ} {a : α} (h : rely s s') (hend : EndsAmong rely r s' a t) :
    EndsAmong rely r s a t
  | step {r r' : Routine σ α} {s s' t : σ} {a : α} (h : Step s r s' r')
    (hend : EndsAmong rely r' s' a t) :
    EndsAmong rely r s a t

/-- A routine that ends alone ends among others that do nothing. -/
theorem Ends.among (rely : σ → σ → Prop) {r : Routine σ α} {s s' : σ} {a : α} (h : Ends r s a s') :
    EndsAmong rely r s a s' := by
  induction h with
  | done => exact .done
  | step hstep _ ih => exact .step hstep ih

/-- Among others, what it meets is accepted if they keep that. -/
theorem Wp.endsAmong {Q : α → σ → Prop} (hQ : ∀ a s s', Q a s → rely s s' → Q a s')
    {r : Routine σ α} {s s' : σ}
    {a : α} (h : Wp rely guar dropped r Q s) (hend : EndsAmong rely r s a s') : Q a s' := by
  induction hend with
  | done => exact h
  | around haround _ ih => exact ih (h.among hQ haround)
  | step hstep _ ih => exact ih (h.step hstep).2

/-! ## What no step changes -/

/-- The steps of the routine keep `F`. -/
def Keeps (F : σ → Prop) : Routine σ α → Prop
  | done _ => True
  | critical x k => (∀ s, F s → F (x s).2) ∧ ∀ b, (k b).Keeps F
  | choose k => ∀ b, (k b).Keeps F
  | await effect _ k => (∀ b s, F s → F (effect b s).2) ∧ ∀ c, (k c).Keeps F

variable {F : σ → Prop}

theorem keeps_pure (a : α) : (pure a : Routine σ α).Keeps F := trivial

/-- Two parts keep what each of them does. -/
theorem keeps_bind {r : Routine σ α} {g : α → Routine σ β} (hr : r.Keeps F)
    (hg : ∀ a, (g a).Keeps F) :
    (r >>= g).Keeps F := by
  induction r with
  | done a => exact hg a
  | critical x k ih => exact ⟨hr.1, fun b => ih b (hr.2 b)⟩
  | choose k ih => exact fun b => ih b (hr b)
  | await effect onDrop k ih => exact ⟨hr.1, fun c => ih c (hr.2 c)⟩

theorem keeps_locked {x : σ → α × σ} (h : ∀ s, F s → F (x s).2) : (locked x).Keeps F :=
  ⟨h, fun _ => trivial⟩

theorem keeps_alter {f : σ → σ} (h : ∀ s, F s → F (f s)) : (alter f).Keeps F := keeps_locked h

theorem keeps_look (f : σ → α) : (look f).Keeps F := keeps_locked fun _ h => h

theorem keeps_chosen : (chosen α : Routine σ α).Keeps F := fun _ => trivial

theorem keeps_answer : (answer α : Routine σ α).Keeps F := ⟨fun _ _ h => h, fun _ => trivial⟩

/-- What others keep and the routine keeps holds where it ends. -/
theorem wp_frame (hF : ∀ s s', F s → rely s s' → F s') {r : Routine σ α} {Q : α → σ → Prop}
    (hr : r.Keeps F) :
    ∀ {s}, Wp rely guar dropped r Q s → F s → Wp rely guar dropped r (fun a s => Q a s ∧ F s) s := by
  induction r with
  | done a => exact fun h hs => ⟨h, hs⟩
  | critical x k ih =>
    exact fun h hs s' hs' => ⟨(h s' hs').1,
      ih _ (hr.2 _) (h s' hs').2 (hr.1 s' (stable_path hF hs hs'))⟩
  | choose k ih =>
    exact fun h hs s' hs' => ⟨(h s' hs').1,
      fun b => ih b (hr b) ((h s' hs').2 b) (stable_path hF hs hs')⟩
  | await effect onDrop k ih =>
    exact fun h hs s' hs' => ⟨(h s' hs').1, (h s' hs').2.1, fun b =>
      ⟨((h s' hs').2.2 b).1, ih _ (hr.2 _) ((h s' hs').2.2 b).2 (hr.1 b s' (stable_path hF hs hs'))⟩⟩

/-! ## What may come about -/

/-- With the right answers, and nothing around it, the routine ends with an answer and a state that
    `Q` accepts. -/
def Can : Routine σ α → (α → σ → Prop) → σ → Prop
  | done a, Q, s => Q a s
  | critical x k, Q, s => Can (k (x s).1) Q (x s).2
  | choose k, Q, s => ∃ b, Can (k b) Q s
  | await effect _ k, Q, s => ∃ b, Can (k (effect b s).1) Q (effect b s).2

/-- What may be the outcome may be a weaker one. -/
theorem can_mono {Q Q' : α → σ → Prop} (hQ : ∀ a s, Q a s → Q' a s) {r : Routine σ α} :
    ∀ {s}, Can r Q s → Can r Q' s := by
  induction r with
  | done a => exact hQ a _
  | critical x k ih => exact ih _
  | choose k ih => exact fun h => h.imp fun b => ih b
  | await effect onDrop k ih => exact fun h => h.imp fun b => ih _

/-- What the second part may do from where the first may end. -/
theorem can_bind {r : Routine σ α} {g : α → Routine σ β} {Q : β → σ → Prop} :
    ∀ {s}, Can r (fun a => Can (g a) Q) s → Can (r >>= g) Q s := by
  induction r with
  | done a => exact id
  | critical x k ih => exact ih _
  | choose k ih => exact fun h => h.imp fun b => ih b
  | await effect onDrop k ih => exact fun h => h.imp fun b => ih _

theorem can_locked {x : σ → α × σ} {Q : α → σ → Prop} {s : σ} (h : Q (x s).1 (x s).2) :
    Can (locked x) Q s := h

theorem can_alter {f : σ → σ} {Q : Unit → σ → Prop} {s : σ} (h : Q () (f s)) : Can (alter f) Q s := h

theorem can_look {f : σ → α} {Q : α → σ → Prop} {s : σ} (h : Q (f s) s) : Can (look f) Q s := h

theorem can_chosen {Q : α → σ → Prop} {s : σ} (a : α) (h : Q a s) : Can (chosen α) Q s := ⟨a, h⟩

theorem can_answer {Q : α → σ → Prop} {s : σ} (a : α) (h : Q a s) : Can (answer α) Q s := ⟨a, h⟩

theorem can_discard {r : Routine σ α} {Q : σ → Prop} {s : σ} (h : Can r (fun _ => Q) s) :
    Can (discard r) (fun _ => Q) s := can_bind h

/-- With the right answers a routine that may fail ends with an outcome that is accepted. -/
abbrev CanOr {ε : Type} (x : ExceptT ε (Routine σ) α) (P : α → σ → Prop) (E : ε → σ → Prop) :
    σ → Prop :=
  Can x.run (Outcome P E)

/-- A routine that may fail, and from wherever it succeeds the rest. -/
theorem canOr_seq {ε : Type} {x : ExceptT ε (Routine σ) α} {f : α → ExceptT ε (Routine σ) β}
    {P : α → σ → Prop} {P' : β → σ → Prop} {E : ε → σ → Prop} {s : σ} (h : CanOr x P E s)
    (hf : ∀ a s, P a s → CanOr (f a) P' E s) : CanOr (x >>= f) P' E s := by
  refine can_bind (can_mono (fun r s hr => ?_) h)
  cases r with
  | ok a => exact hf a s hr
  | error error => exact hr

/-- The failures go under other names. -/
theorem canOr_adapt {ε ε' : Type} {f : ε → ε'} {x : ExceptT ε (Routine σ) α} {P : α → σ → Prop}
    {E : ε' → σ → Prop} {s : σ} (h : CanOr x P (fun error => E (f error)) s) :
    CanOr (ExceptT.adapt f x) P E s := by
  refine can_bind (can_mono (fun r s hr => ?_) h)
  cases r with
  | ok a => exact hr
  | error error => exact hr

/-- What may come about does so in a run of the routine. -/
theorem exists_ends {Q : α → σ → Prop} {r : Routine σ α} :
    ∀ {s}, Can r Q s → ∃ a s', Ends r s a s' ∧ Q a s' := by
  induction r with
  | done a => exact fun h => ⟨a, _, .done, h⟩
  | critical x k ih =>
    intro s h
    obtain ⟨a, s', hend, hs'⟩ := ih _ h
    exact ⟨a, s', .step (.critical x k) hend, hs'⟩
  | choose k ih =>
    rintro s ⟨b, h⟩
    obtain ⟨a, s', hend, hs'⟩ := ih b h
    exact ⟨a, s', .step (.chosen k b) hend, hs'⟩
  | await effect onDrop k ih =>
    rintro s ⟨b, h⟩
    obtain ⟨a, s', hend, hs'⟩ := ih _ h
    exact ⟨a, s', .step (.answered effect onDrop k b) hend, hs'⟩

/-! ## Ends -/

/-- The surroundings have an answer wherever the routine asks for one. -/
def Live : Routine σ α → Prop
  | done _ => True
  | critical _ k => ∀ b, (k b).Live
  | @choose _ _ β k => Nonempty β ∧ ∀ b, (k b).Live
  | @await _ _ β _ _ _ k => Nonempty β ∧ ∀ c, (k c).Live

/-- Two parts go on whatever they are answered, if each of them does. -/
theorem live_bind {r : Routine σ α} {g : α → Routine σ β} (hr : r.Live) (hg : ∀ a, (g a).Live) :
    (r >>= g).Live := by
  induction r with
  | done a => exact hg a
  | critical x k ih => exact fun b => ih b (hr b)
  | choose k ih => exact ⟨hr.1, fun b => ih b (hr.2 b)⟩
  | await effect onDrop k ih => exact ⟨hr.1, fun c => ih c (hr.2 c)⟩

/-- The same for parts that may fail. -/
theorem liveOr_bind {ε : Type} {x : ExceptT ε (Routine σ) α} {f : α → ExceptT ε (Routine σ) β}
    (hx : x.run.Live) (hf : ∀ a, (f a).run.Live) : (x >>= f).run.Live := by
  refine live_bind hx fun r => ?_
  cases r with
  | ok a => exact hf a
  | error error => trivial

/-- A routine that is always answered ends. -/
theorem Live.ends {r : Routine σ α} (h : r.Live) : ∀ s, ∃ a s', Ends r s a s' := by
  induction r with
  | done a => exact fun s => ⟨a, s, .done⟩
  | critical x k ih =>
    intro s
    obtain ⟨a, s', hend⟩ := ih _ (h _) (x s).2
    exact ⟨a, s', .step (.critical x k) hend⟩
  | choose k ih =>
    intro s
    obtain ⟨b⟩ := h.1
    obtain ⟨a, s', hend⟩ := ih b (h.2 b) s
    exact ⟨a, s', .step (.chosen k b) hend⟩
  | await effect onDrop k ih =>
    intro s
    obtain ⟨b⟩ := h.1
    obtain ⟨a, s', hend⟩ := ih _ (h.2 _) (effect b s).2
    exact ⟨a, s', .step (.answered effect onDrop k b) hend⟩

/-! ## One lock -/

/-- A state, and the routine that holds the lock. -/
structure Locked (σ : Type) : Type 1 where
  state : σ
  holder : Option (Routine σ Unit)

namespace Locked

/-- One step among the routines `ops` of a lock: others change the state, a routine takes the lock,
    makes a step, gives the lock back at its end, or is dropped at an await. -/
inductive Next (rely : σ → σ → Prop) (ops : σ → Routine σ Unit → Prop) : Locked σ → Locked σ → Prop
  | around {s s' : σ} {t} (h : rely s s') : Next rely ops ⟨s, t⟩ ⟨s', t⟩
  | acquire {s : σ} {r} (h : ops s r) : Next rely ops ⟨s, none⟩ ⟨s, some r⟩
  | step {s s' : σ} {r r'} (h : Step s r s' r') : Next rely ops ⟨s, some r⟩ ⟨s', some r'⟩
  | dropped {β γ : Type} {s : σ} (effect : β → σ → γ × σ) (onDrop k) :
    Next rely ops ⟨s, some (.await effect onDrop k)⟩ ⟨onDrop s, none⟩
  | release {s : σ} : Next rely ops ⟨s, some (.done ())⟩ ⟨s, none⟩

/-- The configurations that are reached from `init`. -/
abbrev Reachable (init : Locked σ → Prop) (rely : σ → σ → Prop) (ops : σ → Routine σ Unit → Prop) :
    Locked σ → Prop :=
  Machine.Reachable init (Next rely ops)

variable {inv rest : σ → Prop} {ops : σ → Routine σ Unit → Prop}

/-- What others do is a run. -/
theorem run_around (ops : σ → Routine σ Unit → Prop) {s s' : σ} (h : ReflTransGen rely s s')
    (t : Option (Routine σ Unit)) :
    ReflTransGen (Next rely ops) ⟨s, t⟩ ⟨s', t⟩ := by
  induction h with
  | refl => exact .refl
  | tail _ h ih => exact ih.tail (.around h)

/-- A routine that takes the lock and ends is a run. -/
theorem run_ends (rely : σ → σ → Prop) (ops : σ → Routine σ Unit → Prop) {s s' : σ}
    {r : Routine σ Unit} {a : Unit}
    (h : Ends r s a s') : ReflTransGen (Next rely ops) ⟨s, some r⟩ ⟨s', none⟩ := by
  induction h with
  | done => exact .single .release
  | step hstep _ ih => exact ih.head (.step hstep)

/-- What may come about of the holder comes about in a run. -/
theorem exists_run (rely : σ → σ → Prop) (ops : σ → Routine σ Unit → Prop) {Q : σ → Prop}
    {r : Routine σ Unit} {s : σ} (h : Can r (fun _ => Q) s) :
    ∃ s', Q s' ∧ ReflTransGen (Next rely ops) ⟨s, some r⟩ ⟨s', none⟩ := by
  obtain ⟨a, s', hend, hs'⟩ := exists_ends h
  exact ⟨s', hs', run_ends rely ops hend⟩

/-- Where the lock is free, `rest` holds; where it is held, the holder brings it about. -/
def Meets (rely guar : σ → σ → Prop) (rest : σ → Prop) (c : Locked σ) : Prop :=
  match c.holder with
  | none => rest c.state
  | some r => Wp rely guar rest r (fun _ => rest) c.state

/-- What every routine keeps, and others too, is met in every step. -/
theorem Meets.next (hstable : ∀ s s', rest s → rely s s' → rest s')
    (hops : ∀ s r, rest s → ops s r → Wp rely guar rest r (fun _ => rest) s) {c c' : Locked σ}
    (hc : c.Meets rely guar rest) (h : Next rely ops c c') : c'.Meets rely guar rest := by
  cases h with
  | @around s s' t h =>
    cases t with
    | none => exact hstable s s' hc h
    | some r => exact Wp.among (fun _ => hstable) hc h
  | acquire h => exact hops _ _ hc h
  | step h => exact (Wp.step hc h).2
  | dropped effect onDrop k => exact (hc _ .refl).2.1
  | release => exact hc

/-- What is met at first is met throughout a run. -/
theorem Meets.run (hstable : ∀ s s', rest s → rely s s' → rest s')
    (hops : ∀ s r, rest s → ops s r → Wp rely guar rest r (fun _ => rest) s) {c c' : Locked σ}
    (hc : c.Meets rely guar rest) (h : ReflTransGen (Next rely ops) c c') : c'.Meets rely guar rest :=
  Machine.preserved_of_path (I := Meets rely guar rest) (fun _ _ => Meets.next hstable hops) hc h

/-- What holds before each step of a routine holds now. -/
theorem Meets.always (inv : σ → Prop) (hinv : ∀ s, rest s → inv s)
    (hguar : ∀ s s', guar s s' → inv s) {c : Locked σ}
    (hc : c.Meets rely guar rest) : inv c.state := by
  rcases c with ⟨s, _ | r⟩
  · exact hinv s hc
  · cases r with
    | done a => exact hinv s hc
    | critical x k => exact hguar _ _ (hc s .refl).1
    | choose k => exact hguar _ _ (hc s .refl).1
    | await effect onDrop k => exact hguar _ _ (hc s .refl).1

theorem Meets.free {c : Locked σ} (hc : c.Meets rely guar rest) (hfree : c.holder = none) :
    rest c.state := by
  rw [Meets, hfree] at hc
  exact hc

/-- What every routine keeps, however it is dropped, holds whenever the lock is free, and what holds
    before each of their steps holds always. -/
theorem invariant {init : Locked σ → Prop} (hinit : ∀ c, init c → c.Meets rely guar rest)
    (hinv : ∀ s, rest s → inv s) (hguar : ∀ s s', guar s s' → inv s)
    (hstable : ∀ s s', rest s → rely s s' → rest s')
    (hops : ∀ s r, rest s → ops s r → Wp rely guar rest r (fun _ => rest) s) {c : Locked σ}
    (hc : Reachable init rely ops c) : inv c.state ∧ (c.holder = none → rest c.state) := by
  have hmeets := Machine.Reachable.invariant hinit (fun _ _ _ => Meets.next hstable hops) hc
  exact ⟨Meets.always inv hinv hguar hmeets, Meets.free hmeets⟩

end Locked

end Routine
