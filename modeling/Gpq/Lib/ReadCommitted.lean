import Mathlib.Data.Fintype.Basic
import Gpq.Lib.Machine
import Gpq.Lib.Transaction

/-!
# Interleaved transactions

Transactions of several connections run statement by statement under READ COMMITTED:
a statement sees the latest committed rows and the writes of its own transaction, and
the rows it locks or writes stay locked until its transaction ends. A statement that
needs a row which another transaction holds waits.

Results about every interleaving are proved one transaction at a time. A `Discipline`
says what every commit keeps, how it may change a row, and what it leaves alone under a
lock of another transaction; `Prog.Safe` runs a body against an environment that commits
under the discipline between any two statements, and leaves alone the rows that the body
holds. If every transaction is safe, the discipline's invariant holds of the committed
rows throughout (`Concurrent.invariant`), and every action changes them as the discipline
says (`Concurrent.since`).

A body that leaves the invariant intact at its end is `Sound`. Sound bodies compose
(`Sound.bind`, `Sound.forEach`): a transaction that has kept the invariant so far may be
taken to have committed, as long as it still holds its locks (`Prog.Safe.rebase`).
-/

namespace Sql

open Function

section Defs

variable (σ : Type) [Database σ]

/-- Two connections. -/
instance twoConnections : @NeZero ℕ Zero.ofOfNat0 2 := ⟨by decide⟩

/-- A transaction, whatever it answers. -/
abbrev Transaction := (α : Type) × Prog σ (Verdict α)

/-- An open transaction: what remains of its body, the rows it holds and its writes. -/
structure Session : Type 1 where
  {Answer : Type}
  rest : Prog σ (Verdict Answer)
  held : List (Key σ)
  writes : List (Write σ)

/-- The committed rows, and the open transaction of each connection `ι`. -/
structure Concurrent (ι : Type) where
  committed : σ
  session : ι → Option (Session σ)

/-- What one connection does next: begin a transaction, run its next statement (or
    end, where there is none), or drop it. -/
inductive Action (ι τ : Type)
  | start (i : ι) (t : τ)
  | advance (i : ι)
  | abort (i : ι)

end Defs

variable {σ : Type} [Database σ] {ι τ : Type}

/-- How a transaction ends, whatever it answers. -/
abbrev Ending := (α : Type) × Verdict α

namespace Ending

/-- Whether the transaction commits. -/
def commits : Ending → Bool
  | ⟨_, .commit _⟩ => true
  | ⟨_, .rollback _⟩ => false

/-- What a transaction with the given writes leaves. -/
def leaves (v : Ending) (s : σ) (W : List (Write σ)) : σ := if v.commits then applyAll s W else s

end Ending

namespace Session

/-- The rows that the transaction sees. -/
def view (S : Session σ) (s : σ) : σ := applyAll s S.writes

/-- The label of the next statement. -/
def label (S : Session σ) : Option (Label σ) :=
  match S.rest with
  | .done _ => none
  | .step q _ => q.label

/-- How the transaction ends, where its body is over. -/
def ending (S : Session σ) : Option Ending :=
  match S.rest with
  | .done v => some ⟨_, v⟩
  | .step _ _ => none

/-- What the rest of the transaction comes to, if it is run in one go. -/
def result (S : Session σ) (s : σ) : Except (Error σ) (Ending × σ) :=
  (S.rest.run (S.view s)).map fun r => (⟨_, r.1⟩, r.2)

end Session

namespace Concurrent

variable (c : Concurrent σ ι)

/-- No transaction is open. -/
def quiescent : Prop := ∀ i, c.session i = none

/-- The rows that a connection holds. -/
def held (i : ι) : List (Key σ) := ((c.session i).map Session.held).getD []

/-- No other connection holds one of the rows. -/
def free (i : ι) (ks : List (Key σ)) : Prop := ∀ j, j ≠ i → ∀ k ∈ ks, k ∉ c.held j

instance [Fintype ι] [DecidableEq ι] [DecidableEq (Key σ)] (i : ι) (ks : List (Key σ)) :
    Decidable (c.free i ks) :=
  inferInstanceAs (Decidable (∀ j, j ≠ i → ∀ k ∈ ks, k ∉ c.held j))

variable [DecidableEq ι]

/-- The connection's transaction is another one, or over. -/
def put (i : ι) (S : Option (Session σ)) : Concurrent σ ι :=
  { c with session := update c.session i S }

variable [Fintype ι] [DecidableEq (Key σ)]

/-- Runs the next statement of a connection's transaction, or ends it. A statement
    that fails takes the transaction with it. -/
def advance (i : ι) : Concurrent σ ι :=
  match c.session i with
  | none => c
  | some S => match S.rest with
    | .done (.commit _) => { c.put i none with committed := S.view c.committed }
    | .done (.rollback _) => c.put i none
    | .step q k => match q.run (S.view c.committed) with
      | .error _ => c.put i none
      | .ok o =>
        if c.free i o.held then c.put i (some ⟨k o.val, S.held ++ o.held, S.writes ++ o.writes⟩)
        else c

/-- What an action leaves. -/
def next (body : τ → Transaction σ) (a : Action ι τ) (c : Concurrent σ ι) : Concurrent σ ι :=
  match a with
  | .start i t => if (c.session i).isNone then c.put i (some ⟨(body t).2, [], []⟩) else c
  | .advance i => c.advance i
  | .abort i => c.put i none

end Concurrent

/-! ## Disciplines -/

variable (σ) in
/-- What transactions keep and may rely on. -/
structure Discipline where
  /-- What holds of the committed rows. -/
  inv : σ → Prop
  /-- How a commit may change a row. -/
  rely : ∀ k : Key σ, Option (Row k) → Option (Row k) → Prop
  /-- What the lock of a row guards beyond the row itself. -/
  guards : Key σ → σ → σ → Prop
  /-- What a commit may do. -/
  moves : σ → σ → Prop
  /-- When a labelled statement may run, given the rows that it sees. -/
  may : Label σ → σ → Prop
  rely_refl : ∀ k o, rely k o o
  rely_trans : ∀ k o₁ o₂ o₃, rely k o₁ o₂ → rely k o₂ o₃ → rely k o₁ o₃
  guards_refl : ∀ k s, guards k s s
  guards_trans : ∀ k s₁ s₂ s₃, rely k (fetch s₂ k) (fetch s₃ k) → guards k s₁ s₂ →
    guards k s₂ s₃ → guards k s₁ s₃
  guards_applyAll : ∀ k s s' W, guards k s s' → fetch s' k = fetch s k →
    rely k (fetch s' k) (fetch (applyAll s' W) k) → guards k (applyAll s W) (applyAll s' W)
  moves_refl : ∀ s, moves s s
  moves_trans : ∀ s₁ s₂ s₃, moves s₁ s₂ → moves s₂ s₃ → moves s₁ s₃

/-- The action runs no labelled statement where it may not. -/
def Discipline.Permits (D : Discipline σ) (a : Action ι τ) (c : Concurrent σ ι) : Prop :=
  match a with
  | .advance i => ∀ S ∈ c.session i, ∀ l ∈ S.label, D.may l (S.view c.committed)
  | _ => True

/-- What others may have committed while the rows `H` were held. -/
structure Discipline.Env (D : Discipline σ) (H : List (Key σ)) (s s' : σ) : Prop where
  inv : D.inv s'
  rely : ∀ k, D.rely k (fetch s k) (fetch s' k)
  held : ∀ k ∈ H, fetch s' k = fetch s k
  guards : ∀ k ∈ H, D.guards k s s'

/-- A change that a transaction which holds the rows `H` may commit. -/
structure Discipline.Commit (D : Discipline σ) (H : List (Key σ)) (s s' : σ) : Prop where
  inv : D.inv s'
  rely : ∀ k, D.rely k (fetch s k) (fetch s' k)
  guards : ∀ k, k ∉ H → D.guards k s s'
  moves : D.moves s s'

/-- What commits may have done in between. -/
structure Discipline.Since (D : Discipline σ) (s s' : σ) : Prop where
  rely : ∀ k, D.rely k (fetch s k) (fetch s' k)
  moves : D.moves s s'

/-- Whatever others commit, the writes can be committed. -/
def Discipline.Kept (D : Discipline σ) (H : List (Key σ)) (W : List (Write σ)) (s : σ) : Prop :=
  ∀ s', D.Env H s s' → D.Commit H s' (applyAll s' W)

section Env

variable {D : Discipline σ} {H H' : List (Key σ)} {W : List (Write σ)} {s s' s'' : σ}

theorem Discipline.Env.refl (h : D.inv s) : D.Env H s s :=
  ⟨h, fun _ => D.rely_refl _ _, fun _ _ => rfl, fun _ _ => D.guards_refl _ _⟩

/-- What others do meanwhile, and then some more of it. -/
theorem Discipline.Env.trans (h : D.Env H s s') (h' : D.Env H s' s'') : D.Env H s s'' where
  inv := h'.inv
  rely k := D.rely_trans k _ _ _ (h.rely k) (h'.rely k)
  held k hk := (h'.held k hk).trans (h.held k hk)
  guards k hk := D.guards_trans k _ _ _ (h'.rely k) (h.guards k hk) (h'.guards k hk)

/-- Fewer locks, more interference. -/
theorem Discipline.Env.weaken (h : D.Env H' s s') (hsub : H ⊆ H') : D.Env H s s' :=
  ⟨h.inv, h.rely, fun k hk => h.held k (hsub hk), fun k hk => h.guards k (hsub hk)⟩

theorem Discipline.Since.refl (s : σ) : D.Since s s := ⟨fun _ => D.rely_refl _ _, D.moves_refl _⟩

theorem Discipline.Since.trans (h : D.Since s s') (h' : D.Since s' s'') : D.Since s s'' :=
  ⟨fun k => D.rely_trans k _ _ _ (h.rely k) (h'.rely k), D.moves_trans _ _ _ h.moves h'.moves⟩

theorem Discipline.Commit.since (h : D.Commit H s s') : D.Since s s' := ⟨h.rely, h.moves⟩

theorem Discipline.Commit.refl (h : D.inv s) : D.Commit H s s :=
  ⟨h, fun _ => D.rely_refl _ _, fun _ _ => D.guards_refl _ _, D.moves_refl _⟩

/-- Commits that follow each other are one. -/
theorem Discipline.Commit.trans (h : D.Commit H s s') (h' : D.Commit H s' s'') :
    D.Commit H s s'' where
  inv := h'.inv
  rely k := D.rely_trans k _ _ _ (h.rely k) (h'.rely k)
  guards k hk := D.guards_trans k _ _ _ (h'.rely k) (h.guards k hk) (h'.guards k hk)
  moves := D.moves_trans _ _ _ h.moves h'.moves

/-- More locks, fewer rows that others hold. -/
theorem Discipline.Commit.weaken (h : D.Commit H s s') (hsub : H ⊆ H') : D.Commit H' s s' :=
  ⟨h.inv, h.rely, fun k hk => h.guards k fun hk' => hk (hsub hk'), h.moves⟩

theorem Discipline.Kept.env (h : D.Kept H W s) (henv : D.Env H s s') : D.Kept H W s' :=
  fun s'' h' => h s'' (henv.trans h')

theorem Discipline.Kept.weaken (h : D.Kept H W s) (hsub : H ⊆ H') : D.Kept H' W s :=
  fun s' h' => (h s' (h'.weaken hsub)).weaken hsub

/-- A transaction that wrote nothing keeps everything. -/
theorem Discipline.kept_nil : D.Kept H [] s := fun _ h => .refl h.inv

/-- A row that is written is the same, whatever it was before. -/
theorem fetch_applyAll_of_mem {k : Key σ} {ws : List (Write σ)} (s s' : σ) (h : ∃ w ∈ ws, w.1 = k) :
    fetch (applyAll s' ws) k = fetch (applyAll s ws) k := by
  induction ws generalizing s s' with
  | nil =>
    obtain ⟨w, hw, -⟩ := h
    cases hw
  | cons w ws ih =>
    rw [applyAll_cons, applyAll_cons]
    by_cases hk : ∃ v ∈ ws, v.1 = k
    · exact ih _ _ hk
    · have hnot : ∀ v ∈ ws, v.1 ≠ k := fun v hv he => hk ⟨v, hv, he⟩
      obtain ⟨v, hv, rfl⟩ := h
      obtain rfl : v = w := (List.mem_cons.1 hv).resolve_right fun hv => hnot v hv rfl
      rw [fetch_applyAll_of_notMem _ hnot, fetch_applyAll_of_notMem _ hnot]
      simp

/-- A row is the same under the same writes. -/
theorem fetch_applyAll_congr {k : Key σ} (ws : List (Write σ)) (h : fetch s' k = fetch s k) :
    fetch (applyAll s' ws) k = fetch (applyAll s ws) k := by
  induction ws generalizing s s' with
  | nil => exact h
  | cons w ws ih =>
    refine ih ?_
    by_cases hk : k = w.1
    · subst hk
      rw [Database.fetch_store_self, Database.fetch_store_self]
    · rw [Database.fetch_store_of_ne s' w.2 hk, Database.fetch_store_of_ne s w.2 hk, h]

/-- A row that is written once. -/
theorem fetch_applyAll_of_unique {k : Key σ} {r : Option (Row k)} {ws : List (Write σ)} (s : σ)
    (h : ⟨k, r⟩ ∈ ws) (honce : ∀ r', ⟨k, r'⟩ ∈ ws → r' = r) : fetch (applyAll s ws) k = r := by
  rw [← fetch_applyAll_of_mem s (store s k r) ⟨_, h, rfl⟩]
  rcases fetch_applyAll_cases (store s k r) ws k with he | hw
  · rw [he, Database.fetch_store_self]
  · exact honce _ hw

/-- What others do to a row, seen through writes. -/
theorem Discipline.Env.rely_applyAll (henv : D.Env H s s') (W : List (Write σ)) (k : Key σ) :
    D.rely k (fetch (applyAll s W) k) (fetch (applyAll s' W) k) := by
  by_cases hk : ∃ w ∈ W, w.1 = k
  · rw [fetch_applyAll_of_mem s s' hk]
    exact D.rely_refl _ _
  · have hnot : ∀ w ∈ W, w.1 ≠ k := fun w hw he => hk ⟨w, hw, he⟩
    rw [fetch_applyAll_of_notMem s hnot, fetch_applyAll_of_notMem s' hnot]
    exact henv.rely k

/-- What others commit, seen through writes that could be committed before. -/
theorem Discipline.Env.applyAll (henv : D.Env H s s') (hkept : D.Kept H W s) :
    D.Env H (applyAll s W) (applyAll s' W) where
  inv := (hkept s' henv).inv
  rely := henv.rely_applyAll W
  held k hk := fetch_applyAll_congr W (henv.held k hk)
  guards k hk := D.guards_applyAll k s s' W (henv.guards k hk) (henv.held k hk)
    ((hkept s' henv).rely k)

end Env

/-! ## Safe bodies -/

namespace Prog

variable {α β γ : Type}

/-- The body, run from the rows `s` with the locks `H` and the writes `W`, while others
    commit under the discipline: wherever it ends, `Q` holds. -/
def Safe (D : Discipline σ) (Q : α → List (Key σ) → List (Write σ) → σ → Prop) :
    Prog σ α → List (Key σ) → List (Write σ) → σ → Prop
  | done a, H, W, s => ∀ s', D.Env H s s' → Q a H W s'
  | step q k, H, W, s => ∀ s', D.Env H s s' → (∀ l ∈ q.label, D.may l (applyAll s' W)) →
      ∀ o, q.run (applyAll s' W) = .ok o →
        (k o.val).Safe D Q (H ++ o.held) (W ++ o.writes) s'

variable {D : Discipline σ} {H H' : List (Key σ)} {W W' : List (Write σ)} {s s' : σ}
  {Q Q' : α → List (Key σ) → List (Write σ) → σ → Prop}

/-- A program that is safe stays so whatever others do meanwhile. -/
theorem Safe.env {p : Prog σ α} (h : p.Safe D Q H W s) (henv : D.Env H s s') : p.Safe D Q H W s' := by
  cases p with
  | done a => exact fun s'' h' => h s'' (henv.trans h')
  | step q k => exact fun s'' h' => h s'' (henv.trans h')

/-- A postcondition may be replaced by a weaker one. -/
theorem Safe.mono {p : Prog σ α} (h : p.Safe D Q H W s)
    (hQ : ∀ a H' W' s', D.inv s' → Q a H' W' s' → Q' a H' W' s') : p.Safe D Q' H W s := by
  induction p generalizing H W s with
  | done a => exact fun s' henv => hQ a H W s' henv.inv (h s' henv)
  | step q k ih => exact fun s' henv hmay o ho => ih o.val (h s' henv hmay o ho)

/-- Nothing is to be shown where `Q` always holds. -/
theorem safe_of_forall (hQ : ∀ a H W s, Q a H W s) (p : Prog σ α) : p.Safe D Q H W s := by
  induction p generalizing H W s with
  | done a => exact fun s' _ => hQ a H W s'
  | step q k ih => exact fun s' _ _ o _ => ih o.val

/-- Two postconditions hold together. -/
theorem Safe.and {p : Prog σ α} (h : p.Safe D Q H W s) (h' : p.Safe D Q' H W s) :
    p.Safe D (fun a H W s => Q a H W s ∧ Q' a H W s) H W s := by
  induction p generalizing H W s with
  | done a => exact fun s' henv => ⟨h s' henv, h' s' henv⟩
  | step q k ih =>
    exact fun s' henv hmay o ho => ih o.val (h s' henv hmay o ho) (h' s' henv hmay o ho)

/-- A program is safe whose first part brings about that the second is. -/
theorem safe_bind {p : Prog σ β} {f : β → Prog σ α} (hs : D.inv s)
    (h : p.Safe D (fun b H W s => (f b).Safe D Q H W s) H W s) : (p.bind f).Safe D Q H W s := by
  induction p generalizing H W s with
  | done b => exact h s (.refl hs)
  | step q k ih =>
    intro s' henv hmay o ho
    exact ih o.val henv.inv (h s' henv hmay o ho)

/-- A transaction that has kept the invariant so far may be taken to have committed, as
    long as it still holds its locks. -/
theorem Safe.rebase {p : Prog σ α} (h : p.Safe D Q H W' (applyAll s W)) (hkept : D.Kept H W s) :
    p.Safe D (fun a H' W' s' => ∃ W₁, W' = W ++ W₁ ∧ D.Kept H' W s' ∧ Q a H' W₁ (applyAll s' W))
      H (W ++ W') s := by
  induction p generalizing H W' s with
  | done a =>
    exact fun s' henv => ⟨W', rfl, hkept.env henv, h _ (henv.applyAll hkept)⟩
  | step q k ih =>
    intro s' henv hmay o ho
    rw [applyAll_append] at hmay ho
    rw [List.append_assoc]
    exact ih o.val (h _ (henv.applyAll hkept) hmay o ho)
      ((hkept.env henv).weaken (List.subset_append_left H o.held))

/-- The body keeps the invariant where its answer satisfies `P`, whatever the
    transaction has done before. -/
def SoundWhen (D : Discipline σ) (P : α → Prop) (p : Prog σ α) : Prop :=
  ∀ H s, D.inv s → p.Safe D (fun a H W s => P a → D.Kept H W s) H [] s

/-- The body keeps the invariant. -/
abbrev Sound (D : Discipline σ) (p : Prog σ α) : Prop := p.SoundWhen D fun _ => True

/-- The transaction keeps the invariant where it commits. -/
abbrev Commits (D : Discipline σ) (p : Prog σ (Verdict α)) : Prop :=
  p.SoundWhen D fun v => ∃ a, v = .commit a

/-- Writes that can be committed, after writes that could. -/
theorem kept_append (hkept : D.Kept H W s) (h : D.Kept H W' (applyAll s W)) :
    D.Kept H (W ++ W') s := by
  intro s' henv
  rw [applyAll_append]
  exact (hkept s' henv).trans (h _ (henv.applyAll hkept))

variable {P : α → Prop}

theorem SoundWhen.done (a : α) : (done a : Prog σ α).SoundWhen D P :=
  fun _ _ _ _ _ _ => Discipline.kept_nil

/-- Sound bodies compose. -/
theorem SoundWhen.bind {p : Prog σ β} {f : β → Prog σ α} (hp : Sound D p)
    (hf : ∀ b, (f b).SoundWhen D P) : (p.bind f).SoundWhen D P := by
  intro H s hs
  refine safe_bind hs ((hp H s hs).mono fun b H' W' s' hs' h => ?_)
  have hkept := h trivial
  have hrest := (hf b H' (applyAll s' W') (hkept s' (.refl hs')).inv).rebase hkept
  rw [List.append_nil] at hrest
  refine hrest.mono ?_
  rintro v H'' _ s'' - ⟨W₁, rfl, hkept, hv⟩ hP
  exact kept_append hkept (hv hP)

/-- A loop is sound whose rounds are. -/
theorem Sound.forEach {κ : Type} {f : κ → Prog σ α} (hf : ∀ i, Sound D (f i)) (is : List κ) :
    Sound D (forEach f is) := by
  induction is with
  | nil => exact .done _
  | cons i is ih => exact .bind (hf i) fun a => .bind ih fun as => .done _

/-! ## Statements -/

section Statements

variable {j : Key σ} {guard : Row j → Bool}

/-- A read sees what is committed by then, and what the transaction itself has written. -/
theorem safe_read {f : σ → β} {k : β → Prog σ α}
    (h : ∀ s', D.Env H s s' → (k (f (applyAll s' W))).Safe D Q H W s') :
    (step (.read f) k).Safe D Q H W s := by
  rintro s' henv - o ⟨⟩
  simpa [Outcome.held] using h s' henv

/-- A read that succeeds. -/
theorem safe_tryRead {f : σ → Except (Error σ) β} {k : β → Prog σ α}
    (h : ∀ s' b, D.Env H s s' → f (applyAll s' W) = .ok b → (k b).Safe D Q H W s') :
    (step (.tryRead f) k).Safe D Q H W s := by
  intro s' henv _ o ho
  obtain ⟨b, hb, rfl⟩ := Stmt.run_tryRead ho
  simpa [Outcome.held] using h s' b henv hb

/-- A row that is locked stays as it is; where there is none, nothing is locked. -/
theorem safe_lock {k : Option (Row j) → Prog σ α}
    (hit : ∀ s' r, D.Env H s s' → fetch (applyAll s' W) j = some r → guard r →
      (k (some r)).Safe D Q (H ++ [j]) W s')
    (miss : ∀ s', D.Env H s s' → (k none).Safe D Q H W s') :
    (step (.lock j guard) k).Safe D Q H W s := by
  intro s' henv _ o ho
  obtain ⟨r, hr, hg, rfl⟩ | ⟨-, rfl⟩ := Stmt.run_lock ho
  · simpa [Outcome.held] using hit s' r henv hr hg
  · simpa [Outcome.held] using miss s' henv

/-- An update locks its row and writes it; where no row meets the guard, it does nothing. -/
theorem safe_update {f : Row j → Row j} {k : Bool → Prog σ α}
    (hit : ∀ s' r, D.Env H s s' → fetch (applyAll s' W) j = some r → guard r →
      (k true).Safe D Q (H ++ [j]) (W ++ [⟨j, some (f r)⟩]) s')
    (miss : ∀ s', D.Env H s s' → (fetch (applyAll s' W) j).filter guard = none →
      (k false).Safe D Q H W s') :
    (step (.update j guard f) k).Safe D Q H W s := by
  intro s' henv _ o ho
  obtain ⟨r, hr, hg, rfl⟩ | ⟨hnone, rfl⟩ := Stmt.run_update ho
  · simpa [Outcome.held] using hit s' r henv hr hg
  · simpa [Outcome.held] using miss s' henv hnone

/-- An update of a row that is held and known to match. -/
theorem safe_update_of_held {r : Row j} {f : Row j → Row j} {k : Bool → Prog σ α} (hj : j ∈ H)
    (hr : fetch (applyAll s W) j = some r) (hg : guard r)
    (h : ∀ s', D.Env H s s' → (k true).Safe D Q (H ++ [j]) (W ++ [⟨j, some (f r)⟩]) s') :
    (step (.update j guard f) k).Safe D Q H W s := by
  have hview : ∀ s', D.Env H s s' → fetch (applyAll s' W) j = some r := fun s' henv =>
    (fetch_applyAll_congr W (henv.held j hj)).trans hr
  refine safe_update (fun s' r' henv hr' _ => ?_) fun s' henv hnone => ?_
  · obtain rfl : r = r' := Option.some_inj.1 ((hview s' henv).symm.trans hr')
    exact h s' henv
  · rw [hview s' henv, Option.filter_some, if_pos hg] at hnone
    cases hnone

/-- A labelled update runs only where it may. -/
theorem safe_labelled_update {l : Label σ} {f : Row j → Row j} {k : Bool → Prog σ α}
    (hit : ∀ s' r, D.Env H s s' → fetch (applyAll s' W) j = some r → guard r →
      (k true).Safe D Q (H ++ [j]) (W ++ [⟨j, some (f r)⟩]) s')
    (miss : ∀ s', D.Env H s s' → D.may l (applyAll s' W) →
      (fetch (applyAll s' W) j).filter guard = none → (k false).Safe D Q H W s') :
    (step (.labelled l (.update j guard f)) k).Safe D Q H W s := by
  intro s' henv hmay o ho
  obtain ⟨r, hr, hg, rfl⟩ | ⟨hnone, rfl⟩ := Stmt.run_update ho
  · simpa [Outcome.held] using hit s' r henv hr hg
  · simpa [Outcome.held] using miss s' henv (hmay l rfl) hnone

/-- The same for an update that answers of its row. -/
theorem safe_updateReturning {f : Row j → Row j} {ret : Row j → β} {k : Option β → Prog σ α}
    (hit : ∀ s' r, D.Env H s s' → fetch (applyAll s' W) j = some r → guard r →
      (k (some (ret r))).Safe D Q (H ++ [j]) (W ++ [⟨j, some (f r)⟩]) s')
    (miss : ∀ s', D.Env H s s' → (fetch (applyAll s' W) j).filter guard = none →
      (k none).Safe D Q H W s') :
    (step (.updateReturning j guard f ret) k).Safe D Q H W s := by
  intro s' henv _ o ho
  obtain ⟨r, hr, hg, rfl⟩ | ⟨hnone, rfl⟩ := Stmt.run_updateReturning ho
  · simpa [Outcome.held] using hit s' r henv hr hg
  · simpa [Outcome.held] using miss s' henv hnone

/-- Every row that is written is locked. -/
theorem safe_write {f : σ → Except (Error σ) (β × List (Write σ))} {k : β → Prog σ α}
    (h : ∀ s' b ws, D.Env H s s' → f (applyAll s' W) = .ok (b, ws) →
      (k b).Safe D Q (H ++ ws.map Sigma.fst) (W ++ ws) s') :
    (step (.write f) k).Safe D Q H W s := by
  intro s' henv _ o ho
  obtain ⟨b, ws, hws, rfl⟩ := Stmt.run_write ho
  simpa [Outcome.held] using h s' b ws henv hws

/-- A transaction that is dropped may leave anything behind. -/
theorem safe_rollback {a : α} : (done (.rollback a) : Prog σ (Verdict α)).Safe D
    (fun v H W s => (∃ a, v = .commit a) → D.Kept H W s) H W s := by
  rintro s' - ⟨b, hb⟩
  cases hb

/-- A statement with a condition. -/
theorem safe_require {ok : Bool} {e : Error σ} {q : Stmt σ β} {k : β → Prog σ α}
    (h : (step q k).Safe D Q H W s) : (step (.require ok e q) k).Safe D Q H W s := by
  intro s' henv hmay o ho
  cases ok with
  | false => cases ho
  | true => exact h s' henv hmay o ho

/-- The body takes no locks and writes nothing. -/
def Silent (D : Discipline σ) (p : Prog σ β) : Prop :=
  ∀ H W s (Q : β → List (Key σ) → List (Write σ) → σ → Prop), D.inv s →
    (∀ b s', D.Env H s s' → Q b H W s') → p.Safe D Q H W s

theorem silent_done (b : β) : Silent D (done b : Prog σ β) := fun _ _ _ _ _ h s' henv => h b s' henv

/-- Two parts that write nothing, one after the other. -/
theorem Silent.bind {p : Prog σ β} {f : β → Prog σ γ} (hp : Silent D p) (hf : ∀ b, Silent D (f b)) :
    Silent D (p.bind f) := by
  intro H W s Q hs h
  refine safe_bind hs (hp H W s _ hs fun b s' henv => ?_)
  exact hf b H W s' _ henv.inv fun c s'' henv' => h c s'' (henv.trans henv')

/-- A loop whose rounds write nothing. -/
theorem Silent.forEach {κ : Type} {f : κ → Prog σ β} (hf : ∀ i, Silent D (f i)) (is : List κ) :
    Silent D (forEach f is) := by
  induction is with
  | nil => exact silent_done _
  | cons i is ih => exact .bind (hf i) fun b => .bind ih fun bs => silent_done _

theorem silent_read (f : σ → β) : Silent D (exec (.read f)) :=
  fun _ _ _ _ _ h => safe_read fun _ henv _ henv' => h _ _ (henv.trans henv')

theorem Silent.require {ok : Bool} {e : Error σ} {q : Stmt σ β} (h : Silent D (exec q)) :
    Silent D (exec (.require ok e q)) :=
  fun H W s Q hs hQ => safe_require (h H W s Q hs hQ)

theorem Silent.sound {p : Prog σ β} (h : Silent D p) : Sound D p :=
  fun H s hs => h H [] s _ hs fun _ _ _ _ => Discipline.kept_nil

/-- What follows a silent body starts where it started, after others have committed. -/
theorem Silent.safe_bind {p : Prog σ β} {f : β → Prog σ α} (hp : Silent D p) (hs : D.inv s)
    (h : ∀ b s', D.Env H s s' → (f b).Safe D Q H W s') : (p.bind f).Safe D Q H W s :=
  Prog.safe_bind hs (hp H W s _ hs h)

/-- One statement, which can be committed at once. -/
theorem sound_exec {q : Stmt σ α} (h : ∀ s o, D.inv s → q.run s = .ok o → D.Kept o.held o.writes s) :
    Sound D (exec q) := by
  intro H s hs s' henv _ o ho s'' henv' _
  refine ((h s' o henv.inv ho).weaken (List.subset_append_right H _)).env henv'

theorem sound_read (f : σ → α) : Sound D (exec (.read f)) :=
  sound_exec fun _ _ _ ho => by cases ho; exact Discipline.kept_nil

theorem sound_lock (j : Key σ) (guard : Row j → Bool) : Sound D (exec (.lock j guard)) :=
  fun _ _ _ => safe_lock (fun _ _ _ _ _ _ _ _ => Discipline.kept_nil)
    fun _ _ _ _ _ => Discipline.kept_nil

theorem sound_lockAll (f : σ → α) (keys : α → List (Key σ)) : Sound D (exec (.lockAll f keys)) :=
  sound_exec fun _ _ _ ho => by cases ho; exact Discipline.kept_nil

theorem sound_tryRead (f : σ → Except (Error σ) α) : Sound D (exec (.tryRead f)) :=
  fun _ _ _ => safe_tryRead fun _ _ _ _ _ _ _ => Discipline.kept_nil

theorem Sound.require {ok : Bool} {e : Error σ} {q : Stmt σ α} (h : Sound D (exec q)) :
    Sound D (exec (.require ok e q)) :=
  fun H s hs => safe_require (h H s hs)

/-- A label asks for nothing of a statement that may run at any time. -/
theorem Sound.labelled {l : Label σ} {q : Stmt σ α} (hq : q.label = none) (h : Sound D (exec q)) :
    Sound D (exec (.labelled l q)) := by
  intro H s hs s' henv _ o ho
  refine h H s hs s' henv (fun m hm => ?_) o ho
  rw [hq] at hm
  cases hm

/-- An update of a row that stays locked. -/
theorem sound_update {f : Row j → Row j}
    (h : ∀ s r, D.inv s → fetch s j = some r → guard r → D.Commit [j] s (store s j (some (f r)))) :
    Sound D (exec (.update j guard f)) := by
  refine fun H s hs => safe_update (fun s' r henv hr hg s'' henv' _ => ?_)
    fun _ _ _ _ _ _ => Discipline.kept_nil
  intro t ht
  have hrow : fetch t j = some r := by
    rw [ht.held j (by simp), henv'.held j (by simp)]
    exact hr
  exact (h t r ht.inv hrow hg).weaken (by simp)

end Statements

end Prog

/-! ## Interleavings -/

/-- What a connection's transaction ends with: its ending, its locks and its writes, and
    the rows that are committed by then. -/
abbrev Post (σ : Type) [Database σ] := Ending → List (Key σ) → List (Write σ) → σ → Prop

/-- Where it commits, it keeps the invariant. -/
def Discipline.keeps (D : Discipline σ) : Post σ := fun v H W s =>
  (∃ a, v.2 = .commit a) → D.Kept H W s

namespace Concurrent

/-- The open transactions hold different rows, are safe, and end with `Q`. -/
structure Ok (D : Discipline σ) (Q : ι → Post σ) (c : Concurrent σ ι) : Prop where
  inv : D.inv c.committed
  apart : ∀ i j, i ≠ j → ∀ k ∈ c.held i, k ∉ c.held j
  covered : ∀ i S, c.session i = some S → ∀ w ∈ S.writes, w.1 ∈ S.held
  safe : ∀ i S, c.session i = some S → S.rest.Safe D
    (fun v H W s => D.keeps ⟨_, v⟩ H W s ∧ Q i ⟨_, v⟩ H W s) S.held S.writes c.committed

variable {D : Discipline σ} {Q : ι → Post σ} {c : Concurrent σ ι} {body : τ → Transaction σ}

theorem held_of_session {i : ι} {S : Session σ} (h : c.session i = some S) : c.held i = S.held := by
  rw [held, h]
  rfl

/-- Nothing is to be shown where no transaction is open. -/
theorem Ok.of_quiescent (hs : D.inv c.committed) (hq : c.quiescent) : c.Ok D Q := by
  have hclosed : ∀ i S, c.session i ≠ some S := fun i S => by
    rw [hq i]
    exact nofun
  refine ⟨hs, fun i j _ k hk => ?_, fun i S hS => absurd hS (hclosed i S),
    fun i S hS => absurd hS (hclosed i S)⟩
  rw [held, hq i] at hk
  cases hk

variable [DecidableEq ι]

theorem session_put_self (i : ι) (S : Option (Session σ)) : (c.put i S).session i = S :=
  update_self ..

theorem session_put_of_ne {i j : ι} (h : j ≠ i) (S : Option (Session σ)) :
    (c.put i S).session j = c.session j :=
  update_of_ne h ..

theorem held_put_self (i : ι) (S : Session σ) : (c.put i (some S)).held i = S.held :=
  held_of_session (session_put_self i _)

theorem held_put_none (i : ι) : (c.put i none).held i = [] := by
  rw [held, session_put_self]
  rfl

theorem held_put_of_ne {i j : ι} (h : j ≠ i) (S : Option (Session σ)) :
    (c.put i S).held j = c.held j := by
  rw [held, session_put_of_ne h, held]

/-- The end of a transaction frees its rows. -/
theorem Ok.put_none (h : c.Ok D Q) (i : ι) : (c.put i none).Ok D Q := by
  have hopen : ∀ {j S}, (c.put i none).session j = some S → c.session j = some S := by
    intro j S hS
    by_cases hj : j = i
    · subst hj
      rw [session_put_self] at hS
      cases hS
    · rwa [session_put_of_ne hj] at hS
  have hsub : ∀ {j k}, k ∈ (c.put i none).held j → k ∈ c.held j := by
    intro j k hk
    by_cases hj : j = i
    · subst hj
      rw [held_put_none] at hk
      cases hk
    · rwa [held_put_of_ne hj] at hk
  exact ⟨h.inv, fun j j' hne k hk hk' => h.apart j j' hne k (hsub hk) (hsub hk'),
    fun j S hS => h.covered j S (hopen hS), fun j S hS => h.safe j S (hopen hS)⟩

/-- A transaction begins or goes on, with rows that no other one holds. -/
theorem Ok.put_some {Q' : ι → Post σ} (h : c.Ok D Q) {i : ι} {S : Session σ}
    (hQ : ∀ j, j ≠ i → Q' j = Q j) (hfree : c.free i S.held) (hcov : ∀ w ∈ S.writes, w.1 ∈ S.held)
    (hsafe : S.rest.Safe D (fun v H W s => D.keeps ⟨_, v⟩ H W s ∧ Q' i ⟨_, v⟩ H W s) S.held S.writes
      c.committed) : (c.put i (some S)).Ok D Q' := by
  refine ⟨h.inv, fun j j' hne k hk hk' => ?_, fun j T hT => ?_, fun j T hT => ?_⟩
  · by_cases hj : j = i
    · subst hj
      rw [held_put_self] at hk
      rw [held_put_of_ne hne.symm] at hk'
      exact hfree j' hne.symm k hk hk'
    · rw [held_put_of_ne hj] at hk
      by_cases hj' : j' = i
      · subst hj'
        rw [held_put_self] at hk'
        exact hfree j hj k hk' hk
      · rw [held_put_of_ne hj'] at hk'
        exact h.apart j j' hne k hk hk'
  · by_cases hj : j = i
    · subst hj
      obtain rfl : S = T := Option.some_inj.1 ((session_put_self j _).symm.trans hT)
      exact hcov
    · rw [session_put_of_ne hj] at hT
      exact h.covered j T hT
  · by_cases hj : j = i
    · subst hj
      obtain rfl : S = T := Option.some_inj.1 ((session_put_self j _).symm.trans hT)
      exact hsafe
    · rw [session_put_of_ne hj] at hT
      rw [hQ j hj]
      exact h.safe j T hT

/-- A commit is one of the changes that the other transactions reckon with. -/
theorem Ok.commit (h : c.Ok D Q) {i : ι} {S : Session σ} (hS : c.session i = some S)
    (hkept : D.Kept S.held S.writes c.committed) :
    Ok D Q { c.put i none with committed := S.view c.committed } := by
  have hcommit := hkept _ (.refl h.inv)
  have hclosed := h.put_none i
  refine ⟨hcommit.inv, hclosed.apart, hclosed.covered, fun j T hT => ?_⟩
  have hT : (c.put i none).session j = some T := hT
  have hji : j ≠ i := by
    rintro rfl
    rw [session_put_self] at hT
    cases hT
  have hTj : c.session j = some T := by rwa [session_put_of_ne hji] at hT
  have hapart : ∀ k ∈ T.held, k ∉ S.held := fun k hk hk' =>
    h.apart i j hji.symm k (held_of_session hS ▸ hk') (held_of_session hTj ▸ hk)
  refine (h.safe j T hTj).env ⟨hcommit.inv, hcommit.rely, fun k hk => ?_, fun k hk => ?_⟩
  · refine fetch_applyAll_of_notMem _ fun w hw hwk => hapart k hk ?_
    rw [← hwk]
    exact h.covered i S hS w hw
  · exact hcommit.guards k (hapart k hk)

variable [Fintype ι] [DecidableEq (Key σ)]

/-- A step of a session keeps what is known of all of them: others see nothing of it before it
    commits, and then what its discipline lets it do. -/
theorem Ok.advance (h : c.Ok D Q) {i : ι}
    (hmay : ∀ S ∈ c.session i, ∀ l ∈ S.label, D.may l (S.view c.committed)) :
    (c.advance i).Ok D Q ∧ D.Since c.committed (c.advance i).committed := by
  unfold Concurrent.advance
  cases hS : c.session i with
  | none => exact ⟨h, .refl _⟩
  | some S =>
    obtain ⟨rest, H, W⟩ := S
    have hsafe := h.safe i _ hS
    -- a session that has ended commits or is rolled back
    cases rest with
    | done v =>
      cases v with
      | commit a =>
        have hkept := (hsafe _ (.refl h.inv)).1 ⟨a, rfl⟩
        exact ⟨h.commit hS hkept, (hkept _ (.refl h.inv)).since⟩
      | rollback a => exact ⟨h.put_none i, .refl _⟩
    | step q k =>
      dsimp only
      split
      · exact ⟨h.put_none i, .refl _⟩
      -- a statement that does not fail
      rename_i o ho
      split
      · -- its locks are free
        rename_i hfree
        refine ⟨h.put_some (fun _ _ => rfl) (fun j hj k' hk' => ?_) (fun w hw => ?_)
          (hsafe _ (.refl h.inv) (hmay _ hS) o ho), .refl _⟩
        · -- nobody else has a lock that it had, or takes now
          rcases List.mem_append.1 hk' with hk' | hk'
          · exact h.apart i j hj.symm k' (held_of_session hS ▸ hk')
          · exact hfree j hj k' hk'
        · -- every row that it has written is locked
          rcases List.mem_append.1 hw with hw | hw
          · exact List.mem_append_left _ (h.covered i _ hS w hw)
          · exact List.mem_append_right _ (List.mem_append_right _ (List.mem_map_of_mem hw))
      · exact ⟨h, .refl _⟩

/-- The connections run safe transactions, and more is not asked of how they end. -/
abbrev Safe (D : Discipline σ) (c : Concurrent σ ι) : Prop := c.Ok D fun _ _ _ _ _ => True

/-- Every action among sessions that are safe leaves them safe. -/
theorem Safe.next (h : c.Safe D) (hbody : ∀ t, (body t).2.Commits D) {a : Action ι τ}
    (ha : D.Permits a c) :
    (next body a c).Safe D ∧ D.Since c.committed (next body a c).committed := by
  cases a with
  | start i t =>
    rw [Concurrent.next]
    split
    · refine ⟨h.put_some (fun _ _ => rfl) nofun nofun ?_, .refl _⟩
      exact (hbody t [] _ h.inv).mono fun v H W s _ hv => ⟨hv, trivial⟩
    · exact ⟨h, .refl _⟩
  | advance i => exact h.advance ha
  | abort i => exact ⟨h.put_none i, .refl _⟩

/-- In every interleaving of safe transactions the connections stay safe. -/
theorem safe {init : σ → Prop} (hinit : ∀ s, init s → D.inv s) (hbody : ∀ t, (body t).2.Commits D)
    (hc : Machine.Reachable (fun c : Concurrent σ ι => init c.committed ∧ c.quiescent)
      (Machine.Fires (next body) D.Permits) c) : c.Safe D := by
  refine Machine.Reachable.invariant (I := Concurrent.Safe D) ?_ ?_ hc
  · exact fun c hc => .of_quiescent (hinit _ hc.1) hc.2
  · rintro c _ _ hok ⟨a, ha, rfl⟩
    exact (hok.next hbody ha).1

/-- In every interleaving of safe transactions the invariant holds of the committed
    rows. -/
theorem invariant {init : σ → Prop} (hinit : ∀ s, init s → D.inv s)
    (hbody : ∀ t, (body t).2.Commits D)
    (hc : Machine.Reachable (fun c : Concurrent σ ι => init c.committed ∧ c.quiescent)
      (Machine.Fires (next body) D.Permits) c) : D.inv c.committed :=
  (safe hinit hbody hc).inv

/-- Safe transactions change the committed rows as the discipline says, in any order of
    their statements. -/
theorem since {c' : Concurrent σ ι} (h : c.Safe D) (hbody : ∀ t, (body t).2.Commits D)
    (hc : Relation.ReflTransGen (Machine.Fires (next body) D.Permits) c c') :
    c'.Safe D ∧ D.Since c.committed c'.committed := by
  induction hc with
  | refl => exact ⟨h, .refl _⟩
  | tail _ hstep ih =>
    obtain ⟨a, ha, rfl⟩ := hstep
    obtain ⟨hsafe, hsince⟩ := ih.1.next hbody ha
    exact ⟨hsafe, ih.2.trans hsince⟩

/-- What a statement or the end of a transaction leaves in the committed rows. -/
theorem committed_advance {i : ι} {S : Session σ} (hS : c.session i = some S) :
    (c.advance i).committed =
      (S.ending.map fun v => v.leaves c.committed S.writes).getD c.committed := by
  obtain ⟨rest, H, W⟩ := S
  cases rest with
  | done v => cases v <;> simp [Concurrent.advance, hS, Session.ending, Ending.leaves, Ending.commits,
      Session.view, Concurrent.put]
  | step q k =>
    simp only [Concurrent.advance, hS]
    split
    · rfl
    · split <;> rfl

/-- The end of a transaction. -/
theorem advance_of_ending {i : ι} {S : Session σ} {v : Ending} (hS : c.session i = some S)
    (hv : S.ending = some v) :
    c.advance i = { c.put i none with committed := v.leaves c.committed S.writes } := by
  obtain ⟨rest, H, W⟩ := S
  cases rest with
  | done v' =>
    cases hv
    cases v' <;> simp [Concurrent.advance, hS, Ending.leaves, Ending.commits, Session.view]
    rfl
  | step q k => cases hv

theorem session_advance_of_ending {i : ι} {S : Session σ} {v : Ending} (hS : c.session i = some S)
    (hv : S.ending = some v) (j : ι) : (c.advance i).session j = (c.put i none).session j := by
  rw [advance_of_ending hS hv]

/-- A statement is executed, or waits for a lock. -/
theorem advance_of_run {i : ι} {α β : Type} {q : Stmt σ β} {k : β → Prog σ (Verdict α)}
    {H : List (Key σ)} {W : List (Write σ)} {o : Outcome σ β}
    (hS : c.session i = some ⟨.step q k, H, W⟩) (ho : q.run (applyAll c.committed W) = .ok o) :
    c.advance i =
      if c.free i o.held then c.put i (some ⟨k o.val, H ++ o.held, W ++ o.writes⟩) else c := by
  have hadvance : c.advance i = match q.run (applyAll c.committed W) with
      | .error _ => c.put i none
      | .ok o =>
        if c.free i o.held then c.put i (some ⟨k o.val, H ++ o.held, W ++ o.writes⟩) else c := by
    simp only [Concurrent.advance, hS]
    rfl
  rw [hadvance, ho]

/-- A transaction that meets no lock of the others goes on as if it were run in one go. -/
theorem advance_alone {i : ι} {S : Session σ} (hS : c.session i = some S) (hv : S.ending = none)
    (hfree : ∀ j, j ≠ i → c.held j = []) :
    (∃ S', c.advance i = c.put i (some S') ∧ S'.result c.committed = S.result c.committed) ∨
      ∃ e, S.result c.committed = .error e ∧ c.advance i = c.put i none := by
  obtain ⟨rest, H, W⟩ := S
  cases rest with
  | done v' => cases hv
  | step q k =>
    have hresult : Session.result ⟨.step q k, H, W⟩ c.committed =
        ((Prog.step q k).run (applyAll c.committed W)).map fun r => (⟨_, r.1⟩, r.2) := rfl
    rw [hresult, Prog.run_step]
    cases ho : q.run (applyAll c.committed W) with
    | error e =>
      refine .inr ⟨e, rfl, ?_⟩
      simp only [Concurrent.advance, hS, Session.view, ho]
    | ok o =>
      have hfree : c.free i o.held := fun j hj k _ => by simp [hfree j hj]
      refine .inl ⟨_, (advance_of_run hS ho).trans (if_pos hfree), ?_⟩
      dsimp only [Session.result, Session.view]
      rw [applyAll_append]

end Concurrent

end Sql
