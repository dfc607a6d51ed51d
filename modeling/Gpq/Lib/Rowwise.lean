import Gpq.Lib.Hoare
import Gpq.Lib.ReadCommitted

/-!
# Row by row

How the statements of a body may change single rows, whatever rows they find: a body
`Keeps` a relation between the rows before and after, where each of its statements does,
with any answers of the earlier ones.

The relation then holds, in every interleaving, between the committed rows and those that
an open transaction sees (`Session.Within`): its own statements keep to it
(`Session.Within.step`), and other transactions commit no row that it has written
(`Session.Within.commit`). `Concurrent.effect` says what one action does to the whole.
-/

namespace Sql

variable {σ : Type} [Database σ] {α β ι : Type}

variable (σ) in
/-- How rows may change; a row may stay as it is, and change more than once. -/
structure RowRel where
  rel : ∀ k : Key σ, Option (Row k) → Option (Row k) → Prop
  refl : ∀ k o, rel k o o
  trans : ∀ k o₁ o₂ o₃, rel k o₁ o₂ → rel k o₂ o₃ → rel k o₁ o₃

/-- Every row changes as it may. -/
def RowRel.Of (R : RowRel σ) (s s' : σ) : Prop := ∀ k, R.rel k (fetch s k) (fetch s' k)

section Of

variable {R : RowRel σ} {s s' s'' : σ}

theorem RowRel.of_refl (s : σ) : R.Of s s := fun _ => R.refl _ _

theorem RowRel.Of.trans (h : R.Of s s') (h' : R.Of s' s'') : R.Of s s'' :=
  fun k => R.trans k _ _ _ (h k) (h' k)

/-- Writes that each keep the relation of their row keep it on all rows. -/
theorem RowRel.of_applyAll {ws : List (Write σ)} (h : ∀ w ∈ ws, R.rel w.1 (fetch s w.1) w.2) :
    R.Of s (applyAll s ws) := by
  intro k
  rcases fetch_applyAll_cases s ws k with he | hw
  · rw [he]
    exact R.refl _ _
  · exact h _ hw

end Of

variable (σ) in
/-- No row loses a property. -/
def RowRel.preserving (P : ∀ k : Key σ, Row k → Prop) : RowRel σ where
  rel k o o' := (∀ r ∈ o, P k r) → ∀ r ∈ o', P k r
  refl _ _ h := h
  trans _ _ _ _ h h' := h' ∘ h

namespace Prog

/-- Every statement of the body changes rows as it may. -/
def Keeps (R : RowRel σ) : Prog σ α → Prop
  | done _ => True
  | step q k => (∀ s o, q.run s = .ok o → R.Of s (applyAll s o.writes)) ∧ ∀ b, (k b).Keeps R

variable {R : RowRel σ} {j : Key σ} {guard : Row j → Bool}

theorem keeps_done (a : α) : (done a : Prog σ α).Keeps R := trivial

/-- Two programs that keep a relation do so one after the other. -/
theorem Keeps.bind {p : Prog σ β} {f : β → Prog σ α} (hp : p.Keeps R) (hf : ∀ b, (f b).Keeps R) :
    (p.bind f).Keeps R := by
  induction p with
  | done b => exact hf b
  | step q k ih => exact ⟨hp.1, fun b => ih b (hp.2 b)⟩

/-- So does a loop. -/
theorem Keeps.forEach {κ : Type} {f : κ → Prog σ α} (hf : ∀ i, (f i).Keeps R) (is : List κ) :
    (forEach f is).Keeps R := by
  induction is with
  | nil => exact keeps_done _
  | cons i is ih => exact .bind (hf i) fun a => .bind ih fun as => keeps_done _

/-- What a run of the body changes. -/
theorem Keeps.ensures {p : Prog σ α} (h : p.Keeps R) (s : σ) :
    p.Ensures ⊤ (fun _ s' => R.Of s s') s := by
  induction p generalizing s with
  | done a => exact R.of_refl s
  | step q k ih =>
    intro o ho
    refine ⟨fun _ => trivial, Ensures.mono (ih o.val (h.2 _) _) fun _ s' hs' => ?_⟩
    exact (h.1 s o ho).trans hs'

/-- Weaker demands. -/
theorem Keeps.mono {R' : RowRel σ} {p : Prog σ α} (h : p.Keeps R)
    (hR : ∀ k o o', R.rel k o o' → R'.rel k o o') : p.Keeps R' := by
  induction p with
  | done a => exact keeps_done a
  | step q k ih => exact ⟨fun s o ho j => hR _ _ _ (h.1 s o ho j), fun b => ih b (h.2 b)⟩

/-! ## Statements -/

/-- What writes nothing keeps every relation. -/
theorem keeps_silent {q : Stmt σ α} (h : ∀ s o, q.run s = .ok o → o.writes = []) :
    (exec q).Keeps R := by
  refine ⟨fun s o ho => ?_, keeps_done⟩
  rw [h s o ho]
  exact R.of_refl s

theorem keeps_read (f : σ → α) : (exec (.read f)).Keeps R :=
  keeps_silent fun _ _ ho => by cases ho; rfl

theorem keeps_tryRead (f : σ → Except (Error σ) α) : (exec (.tryRead f)).Keeps R :=
  keeps_silent fun _ _ ho => by obtain ⟨b, -, rfl⟩ := Stmt.run_tryRead ho; rfl

/-- A lock writes nothing. -/
theorem keeps_lock (j : Key σ) (guard : Row j → Bool) : (exec (.lock j guard)).Keeps R :=
  keeps_silent fun _ _ ho => by
    obtain ⟨r, -, -, rfl⟩ | ⟨-, rfl⟩ := Stmt.run_lock ho
    · rfl
    · rfl

theorem keeps_lockAll (f : σ → α) (keys : α → List (Key σ)) : (exec (.lockAll f keys)).Keeps R :=
  keeps_silent fun _ _ ho => by cases ho; rfl

/-- A statement with a condition writes what the statement does. -/
theorem Keeps.require {q : Stmt σ α} (h : (exec q).Keeps R) (ok : Bool) (e : Error σ) :
    (exec (.require ok e q)).Keeps R := by
  refine ⟨fun s o ho => ?_, keeps_done⟩
  cases ok with
  | false => cases ho
  | true => exact h.1 s o ho

theorem Keeps.labelled {q : Stmt σ α} (h : (exec q).Keeps R) (l : Label σ) :
    (exec (.labelled l q)).Keeps R := ⟨h.1, keeps_done⟩

/-- An update writes one row that meets its guard. -/
theorem keeps_update {f : Row j → Row j} (h : ∀ r, guard r → R.rel j (some r) (some (f r))) :
    (exec (.update j guard f)).Keeps R := by
  refine ⟨fun s o ho => ?_, keeps_done⟩
  obtain ⟨r, hr, hg, rfl⟩ | ⟨-, rfl⟩ := Stmt.run_update ho
  · refine RowRel.of_applyAll fun w hw => ?_
    rw [List.mem_singleton.1 hw, hr]
    exact h r hg
  · exact R.of_refl s

/-- The same for an update that answers of its row. -/
theorem keeps_updateReturning {f : Row j → Row j} {ret : Row j → α}
    (h : ∀ r, guard r → R.rel j (some r) (some (f r))) :
    (exec (.updateReturning j guard f ret)).Keeps R := by
  refine ⟨fun s o ho => ?_, keeps_done⟩
  obtain ⟨r, hr, hg, rfl⟩ | ⟨-, rfl⟩ := Stmt.run_updateReturning ho
  · refine RowRel.of_applyAll fun w hw => ?_
    rw [List.mem_singleton.1 hw, hr]
    exact h r hg
  · exact R.of_refl s

/-- A statement that writes several rows. -/
theorem keeps_write {f : σ → Except (Error σ) (α × List (Write σ))}
    (h : ∀ s b ws, f s = .ok (b, ws) → ∀ w ∈ ws, R.rel w.1 (fetch s w.1) w.2) :
    (exec (.write f)).Keeps R := by
  refine ⟨fun s o ho => ?_, keeps_done⟩
  obtain ⟨b, ws, hws, rfl⟩ := Stmt.run_write ho
  exact RowRel.of_applyAll (h s b ws hws)

end Prog

/-! ## Open transactions -/

/-- The transaction sees the committed rows changed as they may be, and keeps to it. -/
structure Session.Within (R : RowRel σ) (S : Session σ) (s : σ) : Prop where
  keeps : S.rest.Keeps R
  sees : R.Of s (S.view s)

namespace Session.Within

variable {R : RowRel σ} {s : σ}

/-- A transaction that has written nothing. -/
theorem of_nil {p : Prog σ (Verdict α)} {H : List (Key σ)} (h : p.Keeps R) :
    (⟨p, H, []⟩ : Session σ).Within R s := ⟨h, R.of_refl s⟩

/-- The next statement. -/
theorem step {q : Stmt σ β} {k : β → Prog σ (Verdict α)} {H : List (Key σ)} {W : List (Write σ)}
    {o : Outcome σ β} (h : Session.Within R ⟨.step q k, H, W⟩ s) (ho : q.run (applyAll s W) = .ok o)
    (H' : List (Key σ)) : Session.Within R ⟨k o.val, H', W ++ o.writes⟩ s := by
  refine ⟨h.keeps.2 _, ?_⟩
  rw [Session.view, applyAll_append]
  exact h.sees.trans (h.keeps.1 _ o ho)

/-- Others commit rows that the transaction does not hold. -/
theorem commit {S : Session σ} (h : S.Within R s) (hcov : ∀ w ∈ S.writes, w.1 ∈ S.held)
    {W : List (Write σ)} (hapart : ∀ w ∈ W, w.1 ∉ S.held) : S.Within R (applyAll s W) := by
  refine ⟨h.keeps, fun k => ?_⟩
  by_cases hk : ∃ w ∈ S.writes, w.1 = k
  · obtain ⟨w, hw, rfl⟩ := hk
    have hrow : fetch (applyAll s W) w.1 = fetch s w.1 :=
      fetch_applyAll_of_notMem s fun v hv he => hapart v hv (he ▸ hcov w hw)
    rw [Session.view, fetch_applyAll_congr S.writes hrow, hrow]
    exact h.sees w.1
  · rw [Session.view, fetch_applyAll_of_notMem _ fun w hw he => hk ⟨w, hw, he⟩]
    exact R.refl _ _

end Session.Within

/-! ## Locks -/

namespace Concurrent

/-- The open transactions hold different rows, among them all that they have written. -/
structure Locked (c : Concurrent σ ι) : Prop where
  apart : ∀ i j, i ≠ j → ∀ k ∈ c.held i, k ∉ c.held j
  covered : ∀ i S, c.session i = some S → ∀ w ∈ S.writes, w.1 ∈ S.held

variable (σ) in
/-- The discipline that asks for nothing. -/
def anything : Discipline σ where
  inv _ := True
  rely _ _ _ := True
  guards _ _ _ := True
  moves _ _ := True
  may _ _ := True
  rely_refl _ _ := trivial
  rely_trans _ _ _ _ _ _ := trivial
  guards_refl _ _ := trivial
  guards_trans _ _ _ _ _ _ _ := trivial
  guards_applyAll _ _ _ _ _ _ _ := trivial
  moves_refl _ := trivial
  moves_trans _ _ _ _ _ := trivial

variable {c : Concurrent σ ι} {τ : Type} {body : τ → Transaction σ}

theorem Locked.safe (h : c.Locked) : c.Safe (anything σ) := by
  refine ⟨trivial, h.apart, h.covered,
    fun i S _ => Prog.safe_of_forall (fun a H W s => ⟨fun _ => ?_, trivial⟩) _⟩
  exact fun _ _ => ⟨trivial, fun _ => trivial, fun _ _ => trivial, trivial⟩

theorem Locked.of_quiescent (h : c.quiescent) : c.Locked :=
  have hok : c.Safe (anything σ) := .of_quiescent trivial h
  ⟨hok.apart, hok.covered⟩

variable [Fintype ι] [DecidableEq ι] [DecidableEq (Key σ)]

/-- Every action keeps that sessions have locked what they write, and nobody else has. -/
theorem Locked.next (h : c.Locked) (a : Action ι τ) : (next body a c).Locked := by
  have hok : (Concurrent.next body a c).Safe (anything σ) :=
    (h.safe.next (fun t => fun H s _ => Prog.safe_of_forall
    (fun v H W s _ _ _ => ⟨trivial, fun _ => trivial, fun _ _ => trivial, trivial⟩) _) ?_).1
  · exact ⟨hok.apart, hok.covered⟩
  · cases a <;> simp [Discipline.Permits, anything]

/-- What an action does: nothing, the beginning of a transaction, its end with or without
    a commit, or its next statement. -/
inductive Effect (body : τ → Transaction σ) (c : Concurrent σ ι) : Action ι τ → Concurrent σ ι → Prop
  | idle (a : Action ι τ) : Effect body c a c
  | start (i : ι) (t : τ) (hS : c.session i = none) :
      Effect body c (.start i t) (c.put i (some ⟨(body t).2, [], []⟩))
  | drop (a : Action ι τ) (i : ι) : Effect body c a (c.put i none)
  | commit (i : ι) (S : Session σ) (hS : c.session i = some S)
      (hcommit : ∃ v, S.rest = .done (.commit v)) :
      Effect body c (.advance i) { c.put i none with committed := S.view c.committed }
  | statement (i : ι) {β γ : Type} (q : Stmt σ β) (k : β → Prog σ (Verdict γ)) (H : List (Key σ))
      (W : List (Write σ)) (o : Outcome σ β) (hS : c.session i = some ⟨.step q k, H, W⟩)
      (ho : q.run (applyAll c.committed W) = .ok o) :
      Effect body c (.advance i) (c.put i (some ⟨k o.val, H ++ o.held, W ++ o.writes⟩))

/-- What an action does is one of these: nothing, a start, a statement, a commit, or that a
    session is dropped. -/
theorem effect (body : τ → Transaction σ) (c : Concurrent σ ι) (a : Action ι τ) :
    Effect body c a (Concurrent.next body a c) := by
  cases a with
  | start i t =>
    rw [Concurrent.next]
    split
    · exact .start i t (Option.isNone_iff_eq_none.1 ‹_›)
    · exact .idle _
  | abort i => exact .drop _ i
  | advance i =>
    rw [Concurrent.next]
    cases hS : c.session i with
    | none =>
      rw [Concurrent.advance, hS]
      exact .idle _
    | some S =>
      obtain ⟨rest, H, W⟩ := S
      -- the session has ended, and commits or is rolled back
      cases rest with
      | done v =>
        cases v with
        | commit b =>
          rw [advance_of_ending hS rfl]
          exact .commit i _ hS ⟨b, rfl⟩
        | rollback b =>
          rw [advance_of_ending hS rfl]
          exact .drop _ i
      | step q k =>
        -- its next statement fails, waits for a lock, or is executed
        cases ho : q.run (applyAll c.committed W) with
        | error e =>
          have hadvance : c.advance i = c.put i none := by
            simp only [Concurrent.advance, hS, Session.view, ho]
          rw [hadvance]
          exact .drop _ i
        | ok o =>
          rw [advance_of_run hS ho]
          split
          · exact .statement i q k H W o hS ho
          · exact .idle _

end Concurrent

end Sql
