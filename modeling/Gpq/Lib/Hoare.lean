import Mathlib.Logic.Relation
import Gpq.Lib.Transaction

/-!
# Pre- and postconditions of transaction bodies

`p.Ensures R Q s`: run in one go from `s`, the body `p` writes only along the
relation `R`, and leaves an answer and a state that satisfy `Q` if it runs to its
end. There is one rule for each kind of statement (`ensures_read`,
`ensures_update`, …), one for sequencing (`ensures_bind`) and one for loops
(`ensures_forEach`).

  * `Ensures.of_run`: what a completed run satisfies;
  * `Ensures.commit`: what a transaction leaves behind.

`p.Yields Q s` says that the body does run to its end, and that `Q` holds there.
-/

namespace Sql

namespace Prog

variable {σ : Type} [Database σ] {α β γ ι : Type}

/-- Every write of the body moves the state along `R`, and `Q` holds at its end.
    A statement that fails ends the run. -/
def Ensures (R : σ → σ → Prop) : Prog σ α → (α → σ → Prop) → σ → Prop
  | done a, Q, s => Q a s
  | step q k, Q, s => ∀ o, q.run s = .ok o → (o.writes ≠ [] → R s (applyAll s o.writes)) ∧
      (k o.val).Ensures R Q (applyAll s o.writes)

variable {R : σ → σ → Prop} {Q Q' : α → σ → Prop} {s s' : σ} {j : Key σ} {guard : Row j → Bool}

theorem ensures_done {a : α} (h : Q a s) : (done a : Prog σ α).Ensures R Q s := h

/-- A postcondition may be replaced by a weaker one. -/
theorem Ensures.mono {p : Prog σ α} (h : p.Ensures R Q s) (hQ : ∀ a s, Q a s → Q' a s) :
    p.Ensures R Q' s := by
  induction p generalizing s with
  | done a => exact hQ a s h
  | step q k ih =>
    intro o ho
    obtain ⟨hR, hk⟩ := h o ho
    exact ⟨hR, ih o.val hk⟩

/-- What holds whatever the body does. -/
theorem ensures_of_forall (p : Prog σ α) (hR : ∀ s s', R s s') (hQ : ∀ a s, Q a s) :
    p.Ensures R Q s := by
  induction p generalizing s with
  | done a => exact hQ a s
  | step q k ih => exact fun o _ => ⟨fun _ => hR _ _, ih o.val⟩

/-- Two postconditions hold together. -/
theorem Ensures.and {p : Prog σ α} (h : p.Ensures R Q s) (h' : p.Ensures R Q' s) :
    p.Ensures R (fun a s => Q a s ∧ Q' a s) s := by
  induction p generalizing s with
  | done a => exact ⟨h, h'⟩
  | step q k ih =>
    intro o ho
    exact ⟨(h o ho).1, ih o.val (h o ho).2 (h' o ho).2⟩

/-- So may what is said of the writes. -/
theorem Ensures.mono_writes {R' : σ → σ → Prop} {p : Prog σ α} (h : p.Ensures R Q s)
    (hR : ∀ s s', R s s' → R' s s') : p.Ensures R' Q s := by
  induction p generalizing s with
  | done a => exact h
  | step q k ih =>
    intro o ho
    obtain ⟨hw, hk⟩ := h o ho
    exact ⟨fun hne => hR _ _ (hw hne), ih o.val hk⟩

/-- A program whose first part brings about what the second needs. -/
theorem ensures_bind {p : Prog σ β} {f : β → Prog σ α}
    (h : p.Ensures R (fun b s => (f b).Ensures R Q s) s) : (p.bind f).Ensures R Q s := by
  induction p generalizing s with
  | done b => exact h
  | step q k ih =>
    intro o ho
    obtain ⟨hR, hk⟩ := h o ho
    exact ⟨hR, ih o.val hk⟩

/-- A loop keeps what each of its bodies keeps. -/
theorem ensures_forEach {f : ι → Prog σ α} {is : List ι} {I : σ → Prop}
    (h : ∀ i ∈ is, ∀ s, I s → (f i).Ensures R (fun _ s => I s) s) (hs : I s) :
    (forEach f is).Ensures R (fun _ s => I s) s := by
  induction is generalizing s with
  | nil => exact hs
  | cons i is ih =>
    have hrest : ∀ j ∈ is, ∀ s, I s → (f j).Ensures R (fun _ s => I s) s :=
      fun j hj => h j (List.mem_cons_of_mem _ hj)
    refine ensures_bind ((h i List.mem_cons_self s hs).mono fun a s' hs' => ?_)
    exact ensures_bind ((ih hrest hs').mono fun as s'' hs'' => hs'')

/-! ## Statements -/

/-- A read answers what is found, and changes nothing. -/
theorem ensures_read {f : σ → β} {k : β → Prog σ α} (h : (k (f s)).Ensures R Q s) :
    (step (.read f) k).Ensures R Q s := by
  rintro o ⟨⟩
  exact ⟨fun hne => absurd rfl hne, h⟩

/-- A read that succeeds. -/
theorem ensures_tryRead {f : σ → Except (Error σ) β} {k : β → Prog σ α}
    (h : ∀ b, f s = .ok b → (k b).Ensures R Q s) : (step (.tryRead f) k).Ensures R Q s := by
  intro o ho
  obtain ⟨b, hb, rfl⟩ := Stmt.run_tryRead ho
  exact ⟨fun hne => absurd rfl hne, h b hb⟩

/-- A row that is locked is found and meets the guard, or there is none. -/
theorem ensures_lock {k : Option (Row j) → Prog σ α}
    (hit : ∀ r, fetch s j = some r → guard r → (k (some r)).Ensures R Q s)
    (miss : (fetch s j).filter guard = none → (k none).Ensures R Q s) :
    (step (.lock j guard) k).Ensures R Q s := by
  intro o ho
  obtain ⟨r, hr, hg, rfl⟩ | ⟨hnone, rfl⟩ := Stmt.run_lock ho
  · exact ⟨fun hne => absurd rfl hne, hit r hr hg⟩
  · exact ⟨fun hne => absurd rfl hne, miss hnone⟩

/-- Locks change nothing. -/
theorem ensures_lockAll {f : σ → β} {keys : β → List (Key σ)} {k : β → Prog σ α}
    (h : (k (f s)).Ensures R Q s) : (step (.lockAll f keys) k).Ensures R Q s := by
  rintro o ⟨⟩
  exact ⟨fun hne => absurd rfl hne, h⟩

/-- An update changes the row that meets its guard, and answers of it; or there is none. -/
theorem ensures_updateReturning {f : Row j → Row j} {ret : Row j → β} {k : Option β → Prog σ α}
    (hit : ∀ r, fetch s j = some r → guard r → R s (store s j (some (f r))) ∧
      (k (some (ret r))).Ensures R Q (store s j (some (f r))))
    (miss : (fetch s j).filter guard = none → (k none).Ensures R Q s) :
    (step (.updateReturning j guard f ret) k).Ensures R Q s := by
  intro o ho
  obtain ⟨r, hr, hg, rfl⟩ | ⟨hnone, rfl⟩ := Stmt.run_updateReturning ho
  · exact ⟨fun _ => (hit r hr hg).1, (hit r hr hg).2⟩
  · exact ⟨fun hne => absurd rfl hne, miss hnone⟩

/-- An update that only says whether there was such a row. -/
theorem ensures_update {f : Row j → Row j} {k : Bool → Prog σ α}
    (hit : ∀ r, fetch s j = some r → guard r → R s (store s j (some (f r))) ∧
      (k true).Ensures R Q (store s j (some (f r))))
    (miss : (fetch s j).filter guard = none → (k false).Ensures R Q s) :
    (step (.update j guard f) k).Ensures R Q s := by
  intro o ho
  obtain ⟨r, hr, hg, rfl⟩ | ⟨hnone, rfl⟩ := Stmt.run_update ho
  · exact ⟨fun _ => (hit r hr hg).1, (hit r hr hg).2⟩
  · exact ⟨fun hne => absurd rfl hne, miss hnone⟩

/-- An update of a row that is known to match. -/
theorem ensures_update_of_fetch {r : Row j} {f : Row j → Row j} {k : Bool → Prog σ α}
    (hr : fetch s j = some r) (hg : guard r) (hR : R s (store s j (some (f r))))
    (h : (k true).Ensures R Q (store s j (some (f r)))) :
    (step (.update j guard f) k).Ensures R Q s := by
  refine ensures_update (fun r' hr' _ => ?_) fun hnone => ?_
  · obtain rfl : r' = r := Option.some_inj.1 (hr'.symm.trans hr)
    exact ⟨hR, h⟩
  · simp [hr, hg] at hnone

/-- A statement that writes several rows. -/
theorem ensures_write {f : σ → Except (Error σ) (β × List (Write σ))} {k : β → Prog σ α}
    (h : ∀ b ws, f s = .ok (b, ws) → (ws ≠ [] → R s (applyAll s ws)) ∧
      (k b).Ensures R Q (applyAll s ws)) : (step (.write f) k).Ensures R Q s := by
  intro o ho
  obtain ⟨b, ws, hws, rfl⟩ := Stmt.run_write ho
  exact h b ws hws

/-- A statement with a condition runs only if that is met. -/
theorem ensures_require {ok : Bool} {e : Error σ} {q : Stmt σ β} {k : β → Prog σ α}
    (h : ok → (step q k).Ensures R Q s) : (step (.require ok e q) k).Ensures R Q s := by
  intro o ho
  cases ok with
  | false => cases ho
  | true => exact h rfl o ho

theorem ensures_labelled {l : Label σ} {q : Stmt σ β} {k : β → Prog σ α}
    (h : (step q k).Ensures R Q s) : (step (.labelled l q) k).Ensures R Q s := h

/-- A locking read fails only where what follows its answer fails. -/
theorem run_step_lock_ne_error {e : Error σ} {k : Option (Row j) → Prog σ α}
    (hit : ∀ r, fetch s j = some r → guard r → (k (some r)).run s ≠ .error e)
    (miss : (fetch s j).filter guard = none → (k none).run s ≠ .error e) :
    (step (.lock j guard) k).run s ≠ .error e := by
  rw [run_step_lock]
  cases h : (fetch s j).filter guard with
  | none => exact miss h
  | some r =>
    obtain ⟨hr, hg⟩ := Option.filter_eq_some_iff.1 h
    exact hit r hr hg

/-! ## Bodies that succeed -/

/-- Run in one go, no statement of the body fails, and `Q` holds at its end. -/
def Yields (p : Prog σ α) (Q : α → σ → Prop) (s : σ) : Prop := ∃ a s', p.run s = .ok (a, s') ∧ Q a s'

theorem yields_done {a : α} (h : Q a s) : (done a : Prog σ α).Yields Q s := ⟨a, s, rfl, h⟩

theorem Yields.mono {p : Prog σ α} (h : p.Yields Q s) (hQ : ∀ a s, Q a s → Q' a s) :
    p.Yields Q' s := by
  obtain ⟨a, s', hrun, h⟩ := h
  exact ⟨a, s', hrun, hQ a s' h⟩

/-- A program that runs to an end, and so does what follows it. -/
theorem yields_bind {p : Prog σ β} {f : β → Prog σ α} (h : p.Yields (fun b s => (f b).Yields Q s) s) :
    (p.bind f).Yields Q s := by
  obtain ⟨b, s', hrun, a, s'', hrun', h⟩ := h
  refine ⟨a, s'', ?_, h⟩
  rw [run_bind, hrun]
  exact hrun'

/-- A loop keeps an invariant of what is left to do. -/
theorem yields_forEach {f : ι → Prog σ α} {I : List ι → σ → Prop} {is : List ι}
    (h : ∀ i is s, I (i :: is) s → (f i).Yields (fun _ s => I is s) s) (hs : I is s) :
    (forEach f is).Yields (fun _ s => I [] s) s := by
  induction is generalizing s with
  | nil => exact yields_done hs
  | cons i is ih =>
    refine yields_bind ((h i is s hs).mono fun a s' hs' => ?_)
    exact yields_bind ((ih hs').mono fun as s'' hs'' => yields_done hs'')

/-- A statement whose outcome is known. -/
theorem yields_step {q : Stmt σ β} {k : β → Prog σ α} {o : Outcome σ β} (ho : q.run s = .ok o)
    (h : (k o.val).Yields Q (applyAll s o.writes)) : (step q k).Yields Q s := by
  rw [Yields, run_step, ho]
  exact h

theorem yields_read {f : σ → β} {k : β → Prog σ α} (h : (k (f s)).Yields Q s) :
    (step (.read f) k).Yields Q s := h

/-- A read that succeeds is run. -/
theorem yields_tryRead {f : σ → Except (Error σ) β} {k : β → Prog σ α} {b : β} (hb : f s = .ok b)
    (h : (k b).Yields Q s) : (step (.tryRead f) k).Yields Q s := by
  rw [Yields, run_step_tryRead, hb]
  exact h

/-- A row that is there is locked. -/
theorem yields_lock {r : Row j} {k : Option (Row j) → Prog σ α} (hr : fetch s j = some r)
    (hg : guard r) (h : (k (some r)).Yields Q s) : (step (.lock j guard) k).Yields Q s := by
  rw [Yields, run_step_lock, hr, Option.filter_some, if_pos hg]
  exact h

/-- A row that is there is updated, and answered of. -/
theorem yields_updateReturning {r : Row j} {f : Row j → Row j} {ret : Row j → β}
    {k : Option β → Prog σ α} (hr : fetch s j = some r) (hg : guard r)
    (h : (k (some (ret r))).Yields Q (store s j (some (f r)))) :
    (step (.updateReturning j guard f ret) k).Yields Q s := by
  rw [Yields, run_step_updateReturning, hr, Option.filter_some, if_pos hg]
  exact h

/-- A row that is there is updated. -/
theorem yields_update {r : Row j} {f : Row j → Row j} {k : Bool → Prog σ α} (hr : fetch s j = some r)
    (hg : guard r) (h : (k true).Yields Q (store s j (some (f r)))) :
    (step (.update j guard f) k).Yields Q s := by
  rw [Yields, run_step_update, hr, Option.filter_some, if_pos hg]
  exact h

/-- Where no row meets the guard, the update runs and changes nothing. -/
theorem yields_update_none {f : Row j → Row j} {k : Bool → Prog σ α}
    (hnone : (fetch s j).filter guard = none) (h : (k false).Yields Q s) :
    (step (.update j guard f) k).Yields Q s := by
  rw [Yields, run_step_update, hnone]
  exact h

/-- A statement that writes several rows is run. -/
theorem yields_write {f : σ → Except (Error σ) (β × List (Write σ))} {k : β → Prog σ α} {b : β}
    {w : List (Write σ)} (hw : f s = .ok (b, w)) (h : (k b).Yields Q (applyAll s w)) :
    (step (.write f) k).Yields Q s := by
  rw [Yields, run_step_write, hw]
  exact h

/-- A condition that is met is no hindrance. -/
theorem yields_require {ok : Bool} {e : Error σ} {q : Stmt σ β} {k : β → Prog σ α} (hok : ok)
    (h : (step q k).Yields Q s) : (step (.require ok e q) k).Yields Q s := by
  rw [Yields, run_step_require, if_pos hok]
  exact h

/-- A label changes nothing. -/
theorem yields_labelled {l : Label σ} {q : Stmt σ β} {k : β → Prog σ α} (h : (step q k).Yields Q s) :
    (step (.labelled l q) k).Yields Q s := by
  rw [Yields, run_step_labelled]
  exact h

/-- A body runs in one way only. -/
theorem Yields.ensures {p : Prog σ α} (h : p.Yields Q s) (hR : ∀ s s', R s s') : p.Ensures R Q s := by
  obtain ⟨a, s', hrun, hQ⟩ := h
  induction p generalizing s with
  | done b =>
    cases hrun
    exact hQ
  | step q k ih =>
    intro o ho
    rw [run_step, ho] at hrun
    exact ⟨fun _ => hR _ _, ih o.val hrun⟩

/-- What a transaction that succeeds leaves behind. -/
theorem Yields.commit {p : Prog σ (Verdict α)} {P : σ → Prop}
    (h : p.Yields (fun v s' => (∃ a, v = .commit a) ∧ P s') s) : P (p.commit s) := by
  obtain ⟨v, s', hrun, ⟨a, rfl⟩, hP⟩ := h
  rw [Prog.commit, hrun]
  exact hP

/-! ## Runs -/

/-- A completed run satisfies the postcondition. -/
theorem Ensures.of_run {p : Prog σ α} {a : α} (h : p.Ensures R Q s) (hrun : p.run s = .ok (a, s')) :
    Q a s' := by
  induction p generalizing s with
  | done b =>
    cases hrun
    exact h
  | step q k ih =>
    rw [run_step] at hrun
    cases ho : q.run s with
    | error e => simp [ho] at hrun
    | ok o =>
      rw [ho] at hrun
      exact ih o.val (h o ho).2 hrun

/-- The state at the end is reached by writes along `R`. -/
theorem Ensures.traced {p : Prog σ α} (h : p.Ensures R Q s) :
    p.Ensures R (fun a s' => Q a s' ∧ Relation.ReflTransGen R s s') s := by
  induction p generalizing s with
  | done a => exact ⟨h, .refl⟩
  | step q k ih =>
    intro o ho
    obtain ⟨hw, hk⟩ := h o ho
    refine ⟨hw, (ih o.val hk).mono fun a s' hs' => ⟨hs'.1, ?_⟩⟩
    by_cases hne : o.writes = []
    · rw [hne, applyAll_nil] at hs'
      exact hs'.2
    · exact .head (hw hne) hs'.2

/-- What a transaction leaves behind: its postcondition where it commits, and
    the state as it was where it is dropped or fails. -/
theorem Ensures.commit {p : Prog σ (Verdict α)} {P : σ → Prop}
    (h : p.Ensures R (fun v s' => ∀ a, v = .commit a → P s') s) (hs : P s) : P (p.commit s) := by
  rw [Prog.commit]
  split
  · rename_i a s' hrun
    exact h.of_run hrun a rfl
  · exact hs

end Prog

end Sql
