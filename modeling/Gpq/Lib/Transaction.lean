import Mathlib.Data.List.AList

/-!
# Transactions over a row store

A database is a type of states observed and changed row by row (`Database`).
A statement (`Stmt`) runs on one state and says what it answers, which rows it
locks and which rows it writes; a transaction body (`Prog`) is a sequence of
statements, each chosen from the answers of the earlier ones.

Bodies are data, so one body has two readings:

  * `Prog.run` runs it in one go, as if no other transaction existed;
  * `Gpq.Lib.ReadCommitted` interleaves the statements of many bodies.

`Prog.run_bind` is how a body of several parts is evaluated, and `Prog.commit`
what a whole transaction leaves behind.
-/

namespace Sql

/-- A database: states observed and changed row by row. The rows under
    different keys are independent. -/
class Database (σ : Type) where
  /-- What a row is found under: a table and its primary key. -/
  Key : Type
  /-- The rows that can stand under a key. -/
  Row : Key → Type
  /-- Why a statement can fail. -/
  Error : Type
  /-- The statements that a result about interleavings singles out. -/
  Label : Type
  /-- The row under a key. -/
  fetch : σ → (k : Key) → Option (Row k)
  /-- The state with another row, or none, under a key. -/
  store : σ → (k : Key) → Option (Row k) → σ
  fetch_store_self : ∀ (s : σ) (k : Key) (r : Option (Row k)), fetch (store s k r) k = r
  fetch_store_of_ne : ∀ (s : σ) {k j : Key} (r : Option (Row k)), j ≠ k →
    fetch (store s k r) j = fetch s j

export Database (Key Row Error Label fetch store)

attribute [simp] Database.fetch_store_self

section Defs

variable (σ : Type) [Database σ]

/-- A write to one row: the row that stands under the key afterwards, if any. -/
abbrev Write := (k : Key σ) × Option (Row k)

/-- What a statement did: its answer, the rows it locked without writing them,
    and its writes. -/
structure Outcome (β : Type) where
  /-- The answer. -/
  val : β
  /-- The rows that were locked (`FOR UPDATE`) and not written. -/
  locks : List (Key σ) := []
  /-- The writes, in order. -/
  writes : List (Write σ) := []

/-- One statement: its label, and what it does on a state, or why it fails. -/
structure Stmt (β : Type) where
  /-- The label, where a result about interleavings names the statement. -/
  label : Option (Label σ) := none
  /-- The statement's effect. -/
  run : σ → Except (Error σ) (Outcome σ β)

/-- A transaction body: statements, each chosen from the earlier answers. -/
inductive Prog (α : Type) : Type 1
  /-- The body is over. -/
  | done (a : α)
  /-- The next statement, and what follows its answer. -/
  | step {β : Type} (s : Stmt σ β) (k : β → Prog α)

/-- How a transaction ends: committed or dropped, with a reply either way. -/
inductive Verdict (α : Type) : Type
  | commit (a : α)
  | rollback (a : α)

end Defs

/-- What a run commits: its answer, and the state behind it. -/
def Verdict.committed {ε σ α : Type} : Except ε (Verdict α × σ) → Option (α × σ)
  | .ok (.commit a, s) => some (a, s)
  | _ => none

/-- Only a transaction that ends with a commit has committed anything. -/
theorem Verdict.committed_eq_some {ε σ α : Type} {r : Except ε (Verdict α × σ)} {c : α × σ} :
    committed r = some c ↔ r = .ok (.commit c.1, c.2) := by
  unfold committed
  split <;> simp_all [Prod.ext_iff]

variable {σ : Type} [Database σ] {α β γ : Type}

/-- The state after a list of writes. -/
def applyAll (s : σ) (ws : List (Write σ)) : σ :=
  ws.foldl (fun s w => store s w.1 w.2) s

@[simp] theorem applyAll_nil (s : σ) : applyAll s [] = s := rfl

@[simp] theorem applyAll_cons (s : σ) (w : Write σ) (ws : List (Write σ)) :
    applyAll s (w :: ws) = applyAll (store s w.1 w.2) ws := rfl

theorem applyAll_append (s : σ) (ws vs : List (Write σ)) :
    applyAll s (ws ++ vs) = applyAll (applyAll s ws) vs := by
  simp [applyAll, List.foldl_append]

/-- A row is unchanged by writes to other rows. -/
theorem fetch_applyAll_of_notMem {k : Key σ} {ws : List (Write σ)} (s : σ)
    (h : ∀ w ∈ ws, w.1 ≠ k) : fetch (applyAll s ws) k = fetch s k := by
  induction ws generalizing s with
  | nil => rfl
  | cons w ws ih =>
    rw [applyAll_cons, ih _ fun v hv => h v (List.mem_cons_of_mem _ hv)]
    exact Database.fetch_store_of_ne s w.2 (h w List.mem_cons_self).symm

/-- A row that is not as it was is one of those written. -/
theorem fetch_applyAll_cases (s : σ) (ws : List (Write σ)) (k : Key σ) :
    fetch (applyAll s ws) k = fetch s k ∨ ⟨k, fetch (applyAll s ws) k⟩ ∈ ws := by
  induction ws generalizing s with
  | nil => exact .inl rfl
  | cons w ws ih =>
    rw [applyAll_cons]
    rcases ih (store s w.1 w.2) with h | h
    · by_cases hk : k = w.1
      · subst hk
        rw [h, Database.fetch_store_self]
        exact .inr List.mem_cons_self
      · rw [h, Database.fetch_store_of_ne s w.2 hk]
        exact .inl rfl
    · exact .inr (List.mem_cons_of_mem w h)

/-- A list of deletions deletes exactly the rows it names. -/
theorem fetch_applyAll_deletions [DecidableEq (Key σ)] (s : σ) (ks : List (Key σ)) (k : Key σ) :
    fetch (applyAll s (ks.map fun k => ⟨k, none⟩)) k = if k ∈ ks then none else fetch s k := by
  induction ks generalizing s with
  | nil => simp
  | cons j ks ih =>
    rw [List.map_cons, applyAll_cons, ih]
    by_cases hk : k ∈ ks
    · simp [hk]
    · by_cases hj : k = j
      · subst hj
        simp
      · simp [hk, hj, Database.fetch_store_of_ne s (k := j) none hj]

namespace Outcome

/-- Every row the statement locks: those it locked outright, and those it wrote. -/
def held (o : Outcome σ β) : List (Key σ) := o.locks ++ o.writes.map Sigma.fst

end Outcome

namespace Stmt

/-- A `SELECT`: it neither locks nor writes. -/
def read (f : σ → β) : Stmt σ β := { run := fun s => .ok { val := f s } }

/-- A `SELECT` that can fail, because a row must be there or must decode. -/
def tryRead (f : σ → Except (Error σ) β) : Stmt σ β where
  run s := (f s).map fun b => { val := b }

/-- A `SELECT … FOR UPDATE` of one row: the row where it matches, which is then
    locked. -/
def lock (k : Key σ) (guard : Row k → Bool) : Stmt σ (Option (Row k)) where
  run s := .ok <| match (fetch s k).filter guard with
    | some r => { val := some r, locks := [k] }
    | none => { val := none }

/-- A `SELECT … FOR UPDATE` of several rows: the answer, and the rows it locks. -/
def lockAll (f : σ → β) (keys : β → List (Key σ)) : Stmt σ β where
  run s := .ok { val := f s, locks := keys (f s) }

/-- An `UPDATE … RETURNING` of one row: what it returns of the row where it
    matches. -/
def updateReturning (k : Key σ) (guard : Row k → Bool) (f : Row k → Row k) (ret : Row k → β) :
    Stmt σ (Option β) where
  run s := .ok <| match (fetch s k).filter guard with
    | some r => { val := some (ret r), writes := [⟨k, some (f r)⟩] }
    | none => { val := none }

/-- An `UPDATE` of one row: whether it matched. -/
def update (k : Key σ) (guard : Row k → Bool) (f : Row k → Row k) : Stmt σ Bool where
  run s := .ok <| match (fetch s k).filter guard with
    | some r => { val := true, writes := [⟨k, some (f r)⟩] }
    | none => { val := false }

/-- A statement that writes in some other way. -/
def write (f : σ → Except (Error σ) (β × List (Write σ))) : Stmt σ β where
  run s := (f s).map fun r => { val := r.1, writes := r.2 }

/-- A statement that fails unless the values bound to it are acceptable. -/
def require (ok : Bool) (e : Error σ) (q : Stmt σ β) : Stmt σ β :=
  { q with run := fun s => if ok then q.run s else .error e }

/-- A statement under a label. -/
def labelled (l : Label σ) (q : Stmt σ β) : Stmt σ β := { q with label := some l }

/-! What a statement that succeeded did. -/

section Cases

variable {s : σ} {j : Key σ} {guard : Row j → Bool}

/-- What a read that may fail answers where it succeeds. -/
theorem run_tryRead {f : σ → Except (Error σ) β} {o : Outcome σ β} (h : (tryRead f).run s = .ok o) :
    ∃ b, f s = .ok b ∧ o = { val := b } := by
  simp only [tryRead] at h
  cases hf : f s with
  | error e => simp [hf, Except.map] at h
  | ok b =>
    rw [hf] at h
    cases h
    exact ⟨b, rfl, rfl⟩

/-- A guarded statement that succeeds is the statement. -/
theorem run_require {ok : Bool} {e : Error σ} {q : Stmt σ β} {o : Outcome σ β}
    (h : (require ok e q).run s = .ok o) : q.run s = .ok o := by
  cases ok with
  | false => cases h
  | true => exact h

/-- What a statement that writes several rows does. -/
theorem run_write {f : σ → Except (Error σ) (β × List (Write σ))} {o : Outcome σ β}
    (h : (write f).run s = .ok o) : ∃ b ws, f s = .ok (b, ws) ∧ o = { val := b, writes := ws } := by
  simp only [write] at h
  cases hf : f s with
  | error e => simp [hf, Except.map] at h
  | ok r =>
    rw [hf] at h
    cases h
    exact ⟨r.1, r.2, rfl, rfl⟩

/-- What a lock finds. -/
theorem run_lock {o : Outcome σ (Option (Row j))} (h : (lock j guard).run s = .ok o) :
    (∃ r, fetch s j = some r ∧ guard r ∧ o = { val := some r, locks := [j] }) ∨
      ((fetch s j).filter guard = none ∧ o = { val := none }) := by
  simp only [lock] at h
  cases hf : (fetch s j).filter guard with
  | none =>
    rw [hf] at h
    cases h
    exact .inr ⟨rfl, rfl⟩
  | some r =>
    rw [hf] at h
    cases h
    obtain ⟨hr, hg⟩ := Option.filter_eq_some_iff.1 hf
    exact .inl ⟨r, hr, hg, rfl⟩

/-- What an update does that answers of its row. -/
theorem run_updateReturning {f : Row j → Row j} {ret : Row j → β} {o : Outcome σ (Option β)}
    (h : (updateReturning j guard f ret).run s = .ok o) :
    (∃ r, fetch s j = some r ∧ guard r ∧ o = { val := some (ret r), writes := [⟨j, some (f r)⟩] }) ∨
      ((fetch s j).filter guard = none ∧ o = { val := none }) := by
  simp only [updateReturning] at h
  cases hf : (fetch s j).filter guard with
  | none =>
    rw [hf] at h
    cases h
    exact .inr ⟨rfl, rfl⟩
  | some r =>
    rw [hf] at h
    cases h
    obtain ⟨hr, hg⟩ := Option.filter_eq_some_iff.1 hf
    exact .inl ⟨r, hr, hg, rfl⟩

/-- What an update does. -/
theorem run_update {f : Row j → Row j} {o : Outcome σ Bool} (h : (update j guard f).run s = .ok o) :
    (∃ r, fetch s j = some r ∧ guard r ∧ o = { val := true, writes := [⟨j, some (f r)⟩] }) ∨
      ((fetch s j).filter guard = none ∧ o = { val := false }) := by
  simp only [update] at h
  cases hf : (fetch s j).filter guard with
  | none =>
    rw [hf] at h
    cases h
    exact .inr ⟨rfl, rfl⟩
  | some r =>
    rw [hf] at h
    cases h
    obtain ⟨hr, hg⟩ := Option.filter_eq_some_iff.1 hf
    exact .inl ⟨r, hr, hg, rfl⟩

end Cases

end Stmt

namespace Prog

/-- One body after another. -/
def bind (p : Prog σ α) (f : α → Prog σ β) : Prog σ β :=
  match p with
  | done a => f a
  | step s k => step s fun b => (k b).bind f

instance : Monad (Prog σ) where
  pure := done
  bind := bind

/-- A body of one statement. -/
def exec (s : Stmt σ α) : Prog σ α := step s done

/-- Runs a body for every item in turn and collects the answers. -/
def forEach {ι : Type} (f : ι → Prog σ α) : List ι → Prog σ (List α)
  | [] => done []
  | i :: is => (f i).bind fun a => (forEach f is).bind fun as => done (a :: as)

/-- Runs a body in one go. A statement that fails takes the state with it. -/
def run : Prog σ α → σ → Except (Error σ) (α × σ)
  | done a, s => .ok (a, s)
  | step q k, s => match q.run s with
    | .error e => .error e
    | .ok o => (k o.val).run (applyAll s o.writes)

/-- The state a transaction leaves behind: its writes when it commits, nothing
    when it is dropped or fails. -/
def commit (p : Prog σ (Verdict α)) (s : σ) : σ :=
  match p.run s with
  | .ok (.commit _, s') => s'
  | _ => s

@[simp] theorem pure_eq (a : α) : (pure a : Prog σ α) = done a := rfl

@[simp] theorem bind_eq (p : Prog σ α) (f : α → Prog σ β) : p >>= f = p.bind f := rfl

@[simp] theorem done_bind (a : α) (f : α → Prog σ β) : (done a : Prog σ α).bind f = f a := rfl

@[simp] theorem step_bind (s : Stmt σ γ) (k : γ → Prog σ α) (f : α → Prog σ β) :
    (step s k).bind f = step s fun b => (k b).bind f := rfl

@[simp] theorem exec_bind (s : Stmt σ α) (f : α → Prog σ β) : (exec s).bind f = step s f := rfl

/-- How programs are put together makes no difference. -/
theorem bind_assoc (p : Prog σ α) (f : α → Prog σ β) (g : β → Prog σ γ) :
    (p.bind f).bind g = p.bind fun a => (f a).bind g := by
  induction p with
  | done a => rfl
  | step s k ih => simp only [step_bind, ih]

@[simp] theorem run_done (a : α) (s : σ) : (done a : Prog σ α).run s = .ok (a, s) := rfl

/-- A program runs by its statements, each on what those before it have written. -/
theorem run_step (q : Stmt σ β) (k : β → Prog σ α) (s : σ) :
    (step q k).run s = match q.run s with
      | .error e => .error e
      | .ok o => (k o.val).run (applyAll s o.writes) := by
  rw [run]

@[simp] theorem run_step_read (f : σ → β) (k : β → Prog σ α) (s : σ) :
    (step (.read f) k).run s = (k (f s)).run s := rfl

/-- A program that begins with a read that may fail. -/
theorem run_step_tryRead (f : σ → Except (Error σ) β) (k : β → Prog σ α) (s : σ) :
    (step (.tryRead f) k).run s = match f s with
      | .error e => .error e
      | .ok b => (k b).run s := by
  simp only [run_step, Stmt.tryRead]
  cases f s <;> rfl

@[simp] theorem run_step_lock (j : Key σ) (guard : Row j → Bool) (k : Option (Row j) → Prog σ α)
    (s : σ) : (step (.lock j guard) k).run s = (k ((fetch s j).filter guard)).run s := by
  simp only [run_step, Stmt.lock]
  cases (fetch s j).filter guard <;> rfl

@[simp] theorem run_step_lockAll (f : σ → β) (keys : β → List (Key σ)) (k : β → Prog σ α) (s : σ) :
    (step (.lockAll f keys) k).run s = (k (f s)).run s := rfl

/-- A program that begins with an update that answers of its row. -/
theorem run_step_updateReturning (j : Key σ) (guard : Row j → Bool) (f : Row j → Row j)
    (ret : Row j → β) (k : Option β → Prog σ α) (s : σ) :
    (step (.updateReturning j guard f ret) k).run s = match (fetch s j).filter guard with
      | some r => (k (some (ret r))).run (store s j (some (f r)))
      | none => (k none).run s := by
  simp only [run_step, Stmt.updateReturning]
  cases (fetch s j).filter guard <;> rfl

/-- A program that begins with an update. -/
theorem run_step_update (j : Key σ) (guard : Row j → Bool) (f : Row j → Row j)
    (k : Bool → Prog σ α) (s : σ) :
    (step (.update j guard f) k).run s = match (fetch s j).filter guard with
      | some r => (k true).run (store s j (some (f r)))
      | none => (k false).run s := by
  simp only [run_step, Stmt.update]
  cases (fetch s j).filter guard <;> rfl

/-- A program that begins with a statement that writes several rows. -/
theorem run_step_write (f : σ → Except (Error σ) (β × List (Write σ))) (k : β → Prog σ α) (s : σ) :
    (step (.write f) k).run s = match f s with
      | .error e => .error e
      | .ok r => (k r.1).run (applyAll s r.2) := by
  simp only [run_step, Stmt.write]
  cases f s <;> rfl

/-- A program that begins with a statement with a condition. -/
theorem run_step_require (ok : Bool) (e : Error σ) (q : Stmt σ β) (k : β → Prog σ α) (s : σ) :
    (step (.require ok e q) k).run s = if ok then (step q k).run s else .error e := by
  simp only [run_step, Stmt.require]
  cases ok <;> rfl

@[simp] theorem run_step_labelled (l : Label σ) (q : Stmt σ β) (k : β → Prog σ α) (s : σ) :
    (step (.labelled l q) k).run s = (step q k).run s := by
  simp only [run_step, Stmt.labelled]

/-- A body of several parts is run part by part. -/
theorem run_bind (p : Prog σ α) (f : α → Prog σ β) (s : σ) :
    (p.bind f).run s = match p.run s with
      | .error e => .error e
      | .ok (a, s') => (f a).run s' := by
  induction p generalizing s with
  | done a => rfl
  | step q k ih =>
    simp only [step_bind, run]
    cases q.run s with
    | error e => rfl
    | ok o => exact ih o.val (applyAll s o.writes)

end Prog

end Sql
