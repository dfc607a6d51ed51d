import Gpq.Lib.ReadCommitted

/-!
# Calls

The interleavings of `Gpq.Lib.ReadCommitted`, with a record of the calls: what each
connection is running and since when (`Traced.running`), and for every call that is over
what it found, what it left and how it ended (`Traced.log`).

In every interleaving of safe transactions (`Traced.ok`) a call that reached its end ended
as its body does among others, a call that failed or was dropped left nothing behind, and
between the calls the committed rows change only as the discipline says.
-/

namespace Sql

open Function

section Defs

variable (σ : Type) [Database σ]

/-- A call that is over. -/
structure Call (τ : Type) where
  txn : τ
  /-- The rows that were committed when it began. -/
  began : σ
  /-- The rows that were committed when it ended. -/
  found : σ
  /-- The rows that are committed after its end. -/
  left : σ
  /-- How it ended, unless a statement failed or the connection dropped it. -/
  ending : Option Ending

/-- The connections `ι`, with what they are running and the calls that are over. -/
structure Traced (ι τ : Type) extends Concurrent σ ι where
  running : ι → Option (τ × σ)
  log : List (Call σ τ)

end Defs

variable {σ : Type} [Database σ] {ι τ : Type}

namespace Traced

section Next

variable (c : Traced σ ι τ)

/-- No call was made yet. -/
def idle : Prop := c.toConcurrent.quiescent ∧ (∀ i, c.running i = none) ∧ c.log = []

/-- The call of a connection is over. -/
def record (i : ι) (ending : Option Ending) (c' : Concurrent σ ι) : Traced σ ι τ :=
  { c' with
    running := c.running
    log := c.log ++
      ((c.running i).map fun x => ⟨x.1, x.2, c.committed, c'.committed, ending⟩).toList }

variable [DecidableEq ι] [Fintype ι] [DecidableEq (Key σ)]

/-- What an action leaves. -/
def next (body : τ → Transaction σ) (a : Action ι τ) (c : Traced σ ι τ) : Traced σ ι τ :=
  match a with
  | .start i t =>
    if (c.session i).isNone then
      { c.put i (some ⟨(body t).2, [], []⟩) with
        running := update c.running i (some (t, c.committed))
        log := c.log }
    else c
  | .advance i =>
    let c' := c.toConcurrent.advance i
    match c.session i, c'.session i with
    | some S, none => c.record i S.ending c'
    | _, _ => { c with toConcurrent := c' }
  | .abort i => if (c.session i).isSome then c.record i none (c.put i none) else c

end Next

/-- Every call ends with `P`, and the committed rows change only as the discipline says. -/
structure Ok (D : Discipline σ) (P : τ → σ → Ending → σ → σ → Prop) (c : Traced σ ι τ) : Prop where
  safe : c.toConcurrent.Ok D fun i v _ W s => ∀ x, c.running i = some x → P x.1 x.2 v s (v.leaves s W)
  running : ∀ i x, c.running i = some x → D.Since x.2 c.committed
  ended : ∀ e ∈ c.log, ∀ v, e.ending = some v → P e.txn e.began v e.found e.left
  failed : ∀ e ∈ c.log, (∀ v, e.ending = some v → v.commits = false) → e.left = e.found
  before : ∀ e ∈ c.log, D.Since e.began e.left
  since : ∀ e ∈ c.log, D.Since e.left c.committed

section Runs

variable {D : Discipline σ} {P : τ → σ → Ending → σ → σ → Prop} {c : Traced σ ι τ}
  {body : τ → Transaction σ}

/-- The connections go on, and no call ends. -/
theorem Ok.go_on (h : c.Ok D P) {c' : Concurrent σ ι} (hsince : D.Since c.committed c'.committed)
    (hok : c'.Ok D fun i v _ W s => ∀ x, c.running i = some x → P x.1 x.2 v s (v.leaves s W)) :
    Ok D P { c with toConcurrent := c' } where
  safe := hok
  running i x hx := (h.running i x hx).trans hsince
  ended := h.ended
  failed := h.failed
  before := h.before
  since e he := (h.since e he).trans hsince

/-- The call of a connection ends. -/
theorem Ok.record (h : c.Ok D P) {i : ι} {ending : Option Ending} {c' : Concurrent σ ι}
    (hsince : D.Since c.committed c'.committed)
    (hok : c'.Ok D fun i v _ W s => ∀ x, c.running i = some x → P x.1 x.2 v s (v.leaves s W))
    (hover : ∀ v, ending = some v → ∀ x, c.running i = some x → P x.1 x.2 v c.committed c'.committed)
    (hfailed : (∀ v, ending = some v → v.commits = false) → c'.committed = c.committed) :
    (c.record i ending c').Ok D P := by
  have hmem : ∀ e ∈ (c.record i ending c').log, e ∈ c.log ∨ ∃ x, c.running i = some x ∧
      e = ⟨x.1, x.2, c.committed, c'.committed, ending⟩ := by
    intro e he
    rcases List.mem_append.1 he with he | he
    · exact .inl he
    · obtain ⟨x, hx, rfl⟩ := Option.map_eq_some_iff.1 (Option.mem_toList.1 he)
      exact .inr ⟨x, hx, rfl⟩
  refine ⟨hok, (h.go_on hsince hok).running, fun e he v hv => ?_, fun e he hv => ?_, fun e he => ?_,
    fun e he => ?_⟩
  · obtain he | ⟨x, hx, rfl⟩ := hmem e he
    · exact h.ended e he v hv
    · exact hover v hv x hx
  · obtain he | ⟨x, hx, rfl⟩ := hmem e he
    · exact h.failed e he hv
    · exact hfailed hv
  · obtain he | ⟨x, hx, rfl⟩ := hmem e he
    · exact h.before e he
    · exact (h.running i x hx).trans hsince
  · obtain he | ⟨x, hx, rfl⟩ := hmem e he
    · exact (h.since e he).trans hsince
    · exact .refl _

variable [DecidableEq ι]

/-- A call begins. -/
theorem Ok.start (h : c.Ok D P) {i : ι} {t : τ} {S : Session σ}
    (hok : (c.put i (some S)).Ok D fun j v _ W s =>
      ∀ x, update c.running i (some (t, c.committed)) j = some x → P x.1 x.2 v s (v.leaves s W)) :
    Ok D P { c.put i (some S) with
      running := update c.running i (some (t, c.committed))
      log := c.log } := by
  refine ⟨hok, fun j x hx => ?_, h.ended, h.failed, h.before, h.since⟩
  by_cases hj : j = i
  · subst hj
    cases (update_self j _ c.running).symm.trans hx
    exact .refl _
  · exact h.running j x ((update_of_ne hj _ c.running).symm.trans hx)

variable [Fintype ι] [DecidableEq (Key σ)]

/-- An action keeps what is known of the calls: a call that starts knows its own postcondition,
    one that ends has met it, and one that is aborted leaves nothing. -/
theorem Ok.next (h : c.Ok D P) (hbody : ∀ t, (body t).2.Commits D)
    (hpost : ∀ t s, D.inv s →
      (body t).2.Safe D (fun v _ W s' => P t s ⟨_, v⟩ s' (Ending.leaves ⟨_, v⟩ s' W)) [] [] s)
    {a : Action ι τ} (ha : D.Permits a c.toConcurrent) : (next body a c).Ok D P := by
  cases a with
  | start i t =>
    rw [Traced.next]
    split
    · -- the new call: its routine is safe and meets its postcondition
      refine h.start (h.safe.put_some (fun j hj => ?_) (fun _ _ => by simp) (by simp) ?_)
      · rw [update_of_ne hj]
      · refine ((hbody t [] _ h.safe.inv).and (hpost t _ h.safe.inv)).mono ?_
        rintro v H W s - ⟨hkept, hv⟩
        refine ⟨hkept, fun x hx => ?_⟩
        cases (update_self i _ c.running).symm.trans hx
        exact hv
    · exact h
  | advance i =>
    obtain ⟨hok, hsince⟩ := h.safe.advance ha
    rw [Traced.next]
    split
    · rename_i S hS _
      have hleft := Concurrent.committed_advance hS
      refine h.record hsince hok (fun v hv x hx => ?_) fun hv => ?_
      · -- the call ends with this statement, so that its postcondition holds of what it answers
        have hsafe := h.safe.safe i S hS
        obtain ⟨rest, H, W⟩ := S
        cases rest with
        | done v' =>
          cases hv
          rw [hleft]
          exact (hsafe _ (.refl h.safe.inv)).2 x hx
        | step q k => cases hv
      · rw [hleft]
        cases hend : S.ending with
        | none => rfl
        | some v =>
          rw [Option.map_some, Option.getD_some, Ending.leaves, hv v hend]
          rfl
    · exact h.go_on hsince hok
  | abort i =>
    rw [Traced.next]
    split
    · exact h.record (.refl _) (h.safe.put_none i) (by simp) fun _ => rfl
    · exact h

/-- In every interleaving of safe transactions every call ends as its body does among
    others, and the committed rows change only as the discipline says. -/
theorem ok {init : σ → Prop} (hinit : ∀ s, init s → D.inv s) (hbody : ∀ t, (body t).2.Commits D)
    (hpost : ∀ t s, D.inv s →
      (body t).2.Safe D (fun v _ W s' => P t s ⟨_, v⟩ s' (Ending.leaves ⟨_, v⟩ s' W)) [] [] s)
    (hc : Machine.Reachable (fun c : Traced σ ι τ => init c.committed ∧ c.idle)
      (Machine.Fires (next body) fun a c => D.Permits a c.toConcurrent) c) : c.Ok D P := by
  refine Machine.Reachable.invariant (I := Traced.Ok D P) ?_ ?_ hc
  · rintro c ⟨hs, hq, hrun, hlog⟩
    have hnone : ∀ e, e ∉ c.log := fun e he => by simp [hlog] at he
    refine ⟨.of_quiescent (hinit _ hs) hq, fun i x hx => ?_, fun e he => absurd he (hnone e),
      fun e he => absurd he (hnone e), fun e he => absurd he (hnone e),
        fun e he => absurd he (hnone e)⟩
    rw [hrun i] at hx
    cases hx
  · rintro c _ _ hok ⟨a, ha, rfl⟩
    exact hok.next hbody hpost ha

end Runs

end Traced

end Sql
