import Gpq.Lifecycle.Frames
import Gpq.Lifecycle.Submission

/-!
# Queue capacity

An admission counts the Tenant's nonterminal Generations and inserts a new one in one
transaction, but holds no lock in between. Two admissions may thus both see the last free
place (`capacity_exceeded`). The capacity holds in every interleaving where an admission
finds it below the limit only while there is a place left for every admission that has
counted before (`capacity_held`).
-/

namespace Gpq

open Sql DbKey Prog

/-- The number of nonterminal Generations. -/
def nonterminal (db : Db) : ℕ := db.generations.count fun _ r => !r.state.isTerminal

/-- How a row may change: the Tenant's capacity stays `m`, and a Generation is nonterminal
    only if it was, or is the new one. -/
def CapacityRel (m : ℕ) (new : Option Uuid) : (k : DbKey) → Option (Db.Row k) →
    Option (Db.Row k) → Prop
  | .generation g, o, o' => new = some g ∨
      ((o'.any fun r => !r.state.isTerminal) → o.any fun r => !r.state.isTerminal)
  | .tenant, o, o' => (∀ r ∈ o, r.settings.maxQueuedGenerations = m) →
      ∀ r ∈ o', r.settings.maxQueuedGenerations = m
  | _, _, _ => True

/-- The changes of a transaction that creates the Generation `new`, if any. -/
def capacityRel (m : ℕ) (new : Option Uuid) : RowRel Db where
  rel := CapacityRel m new
  refl k o := by
    cases k with
    | generation g => exact .inr id
    | tenant => exact id
    | _ => trivial
  trans k o₁ o₂ o₃ h h' := by
    cases k with
    | generation g =>
      rcases h with h | h
      · exact .inl h
      rcases h' with h' | h'
      · exact .inl h'
      · exact .inr (h ∘ h')
    | tenant => exact h' ∘ h
    | _ => trivial

/-- Whatever ends and whichever Artifacts are touched, no Generation is new. -/
theorem capacityRel_of_lifecycle {m : ℕ} {new : Option Uuid} {ends : Uuid → Prop} {touch : Touch}
    (k : DbKey) (o o' : Option (Db.Row k)) (h : (lifecycleRel ends touch).rel k o o') :
    (capacityRel m new).rel k o o' := by
  cases k with
  | generation g =>
    refine .inr fun hlive => ?_
    cases o with
    | none =>
      cases h
      cases hlive
    | some r =>
      obtain ⟨r', rfl, -, hterm, -⟩ := h
      exact Bool.not_eq_true' _ ▸ Bool.eq_false_iff.2 fun ht => by simp [hterm ht] at hlive
  | tenant =>
    cases h
    exact id
  | _ => trivial

/-! ## Admissions -/

/-- The statement by which an admission counts. -/
def countStatement : Stmt Db ℕ := .read nonterminal

/-- The Tenant's capacity is `m`. -/
def CapacityIs (m : ℕ) (db : Db) : Prop :=
  ∀ r ∈ fetch db tenant, r.settings.maxQueuedGenerations = m

instance (m : ℕ) (db : Db) : Decidable (CapacityIs m db) :=
  inferInstanceAs (Decidable (∀ r ∈ db.tenant, r.settings.maxQueuedGenerations = m))

/-- An admission that has not counted yet: it only reads, ends, or goes on where it finds
    the queue below its limit. -/
inductive Early (m : ℕ) {α : Type} : Body (Verdict α) → Prop
  | over (v : Verdict α) : Early m (.done v)
  | read {β : Type} (q : Stmt Db β) (k : β → Body (Verdict α))
      (hq : ∀ db o, q.run db = .ok o → o.writes = [])
      (h : ∀ db o, CapacityIs m db → q.run db = .ok o → Early m (k o.val)) : Early m (.step q k)
  | count (k : ℕ → Body (Verdict α)) (id : Uuid) (hfull : ∀ n, m ≤ n → Early m (k n))
      (hroom : ∀ n, (k n).Keeps (capacityRel m (some id))) : Early m (.step countStatement k)

section Admission

variable {m : ℕ} {request : AdmissionRequest} {id : Uuid}

/-- An admission inserts its own Generation and no other. -/
theorem admitNew_keeps (new : NewGeneration) (clock : Time) :
    (admitNew request new clock).Keeps (capacityRel m (some new.id)) := by
  have hrest : ∀ linked : ℕ, (admitLinked request new linked).Keeps
        (capacityRel m (some new.id)) := by
    intro linked
    rw [admitLinked]
    split
    · exact keeps_done _
    dsimp only
    split
    · refine .bind (Keeps.require (keeps_write fun db b ws hws w hw => ?_) _ _) fun _ => keeps_done _
      split at hws
      · cases hws
      · cases hws
        rw [List.mem_singleton.1 hw]
        trivial
    · exact keeps_done _
  -- the insert, after which inputs are linked and the idempotency key is recorded
  refine .bind (Keeps.require (keeps_write fun db b ws hws w hw => ?_) _ _) fun _ => ?_
  · obtain ⟨-, r, rfl, -⟩ := Generations.insertion_eq_ok hws
    rw [List.mem_singleton.1 hw]
    exact .inl rfl
  dsimp only
  split
  · exact hrest 0
  · refine .bind (keeps_write fun db b ws hws w hw => ?_) hrest
    cases hws
    obtain ⟨e, -, rfl⟩ := List.mem_map.1 hw
    trivial

/-- An admission counts the queue before it writes anything. -/
theorem admitFresh_early (uploaded : Uuid → Bool) (now clock : Time) :
    Early m (admitFresh request id uploaded now clock) := by
  refine .read _ _ (fun db o ho => by cases ho; rfl) fun db o hcap ho => ?_
  cases ho
  dsimp only
  cases hsettings : ((fetch db tenant).filter fun r => r.deletedAt.isNone).map TenantRow.settings with
  | none => exact .over _
  | some settings =>
    obtain ⟨r, hr, rfl⟩ := Option.map_eq_some_iff.1 hsettings
    have hmax : r.settings.maxQueuedGenerations = m := hcap r (Option.filter_eq_some_iff.1 hr).1
    -- with a full queue it ends here
    refine .count _ id (fun n hn => ?_) fun n => ?_
    · rw [Prog.done_bind, if_pos (by rw [queueCapacityExceeded, hmax]; exact decide_eq_true hn)]
      exact .over _
    · rw [Prog.done_bind]
      split
      · exact keeps_done _
      refine .bind (Keeps.require (keeps_read _) _ _) fun model => ?_
      split
      case h_2 => exact keeps_done _
      split
      · exact keeps_done _
      refine .bind (.forEach (fun i => .bind (keeps_read _) fun _ => keeps_done _) _) fun inputs => ?_
      split
      · exact keeps_done _
      · exact keeps_done _
      · exact admitNew_keeps _ clock

/-- So does one with an idempotency key, which is looked up first. -/
theorem admitGeneration_early (available : Bool) (uploaded : Uuid → Bool) (now clock : Time) :
    Early m (admitGeneration request id available uploaded now clock) := by
  unfold admitGeneration
  split
  · exact .over _
  split
  · exact .over _
  split
  · exact admitFresh_early uploaded now clock
  rename_i key digest _
  refine .read _ _ (fun db o ho => by cases Stmt.run_require ho; rfl) fun db o _ ho => ?_
  cases Stmt.run_require ho
  dsimp only
  cases fetch db (idempotencyKey key) with
  | none => exact admitFresh_early uploaded now clock
  | some existing =>
    rw [Prog.done_bind]
    dsimp only
    split
    · exact .over _
    refine .read _ _ (fun db o ho => by cases ho; rfl) fun db o _ ho => ?_
    cases ho
    dsimp only
    cases fetch db (generation existing.generationId) with
    | none => exact .over _
    | some row => exact .over _

end Admission

/-! ## The queue -/

/-- The admissions, and the transactions that change the state of a Generation. -/
def queueBody [ManifestHash] : Submission ⊕ Txn → Transaction Db := Sum.elim Submission.body Txn.body

/-- The connections, and which of their transactions have found the queue below its limit. -/
structure Queue (ι : Type) extends Concurrent Db ι where
  passed : ι → Prop

/-- The next statement counts the nonterminal Generations. -/
def Counts (S : Session Db) : Prop := ∃ k, S.rest = .step countStatement k

/-- The transaction counts, and finds the queue below its limit. -/
def Passes (m : ℕ) {ι τ : Type} (a : Action ι τ) (i : ι) (c : Concurrent Db ι) : Prop :=
  match a with
  | .advance j => j = i ∧ (∃ S, c.session i = some S ∧ Counts S) ∧ nonterminal c.committed < m
  | _ => False

section Phase

variable {m : ℕ} {db : Db} {p q : Prop}

/-- What an open transaction may commit: a new Generation only if it has counted. -/
inductive Phase (m : ℕ) (db : Db) (passed : Prop) : Session Db → Prop
  | quiet {S : Session Db} (h : S.Within (capacityRel m none) db) : Phase m db passed S
  | early {α : Type} {p : Body (Verdict α)} {H : List DbKey} (h : Early m p) :
    Phase m db passed ⟨p, H, []⟩
  | counted {S : Session Db} (id : Uuid) (hpassed : passed)
    (h : S.Within (capacityRel m (some id)) db) :
      Phase m db passed S

/-- A phase stays when its place among the admissions is put in a weaker way. -/
theorem Phase.mono {S : Session Db} (h : Phase m db p S) (hpq : p → q) :
    Phase m db q S := by
  cases h with
  | quiet h => exact .quiet h
  | early h => exact .early h
  | counted id hp h => exact .counted id (hpq hp) h

/-- Others commit rows that the transaction does not hold. -/
theorem Phase.commit {S : Session Db} (h : Phase m db p S)
    (hcov : ∀ w ∈ S.writes, w.1 ∈ S.held) {W : List (Write Db)} (hapart : ∀ w ∈ W, w.1 ∉ S.held) :
    Phase m (applyAll db W) p S := by
  cases h with
  | quiet h => exact .quiet (h.commit hcov hapart)
  | early h => exact .early h
  | counted id hp h => exact .counted id hp (h.commit hcov hapart)

/-- The next statement of a transaction. -/
theorem Phase.step {α β : Type} {s : Stmt Db β} {k : β → Body (Verdict α)}
    {H H' : List DbKey} {W : List (Write Db)} {o : Outcome Db β} (h : Phase m db p ⟨.step s k, H, W⟩)
    (ho : s.run (applyAll db W) = .ok o) (hcap : CapacityIs m db) (hpq : p → q)
    (hcounts : Counts ⟨.step s k, H, W⟩ → nonterminal db < m → q) :
    Phase m db q ⟨k o.val, H', W ++ o.writes⟩ := by
  generalize hS : (⟨.step s k, H, W⟩ : Session Db) = S at h hcounts
  cases h with
  | quiet h =>
    subst hS
    exact .quiet (h.step ho H')
  | counted id hp h =>
    subst hS
    exact .counted id (hpq hp) (h.step ho H')
  | early h =>
    cases hS
    cases h with
    | read _ _ hq hk =>
      rw [hq _ o ho]
      exact .early (hk _ o hcap ho)
    | count _ id hfull hroom =>
      cases ho
      by_cases hn : m ≤ nonterminal db
      · exact .early (hfull _ hn)
      · exact .counted id (hcounts ⟨_, rfl⟩ (not_le.1 hn)) (.of_nil (hroom _))

/-- The Generations that are nonterminal are counted. -/
theorem nonterminal_le {db' : Db} {new : Option Uuid} (h : (capacityRel m new).Of db db') :
    nonterminal db' ≤ nonterminal db + new.toList.length := by
  have hsub : {g | ∃ r, db'.generations.lookup g = some r ∧ !r.state.isTerminal} ⊆
      {g | ∃ r, db.generations.lookup g = some r ∧ !r.state.isTerminal} ∪ {g | new = some g} := by
    rintro g ⟨r, hr, hlive⟩
    rcases h (generation g) with hnew | hkeep
    · exact .inr hnew
    · have hr : fetch db' (generation g) = some r := hr
      rw [hr] at hkeep
      obtain ⟨r', hr', hlive'⟩ := (Option.any_eq_true ..).1 (hkeep hlive)
      exact .inl ⟨r', hr', hlive'⟩
  have hnew : ({g | new = some g} : Set Uuid).encard = new.toList.length := by
    cases new with
    | none => simp
    | some id => simp
  have hcard := (Set.encard_le_encard hsub).trans (Set.encard_union_le ..)
  rw [Table.encard_eq_count, Table.encard_eq_count, hnew] at hcard
  exact_mod_cast hcard

theorem capacityIs_of {db' : Db} {new : Option Uuid} (h : (capacityRel m new).Of db db')
    (hcap : CapacityIs m db) : CapacityIs m db' := h tenant hcap

/-- A commit adds one Generation, if the transaction has counted, and none otherwise. -/
theorem Phase.view {S : Session Db} (h : Phase m db p S) (hcap : CapacityIs m db) :
    CapacityIs m (S.view db) ∧ (nonterminal (S.view db) ≤ nonterminal db ∨
      p ∧ nonterminal (S.view db) ≤ nonterminal db + 1) := by
  cases h with
  | quiet h => exact ⟨capacityIs_of h.sees hcap, .inl (nonterminal_le h.sees)⟩
  | early h => exact ⟨hcap, .inl le_rfl⟩
  | counted id hp h => exact ⟨capacityIs_of h.sees hcap, .inr ⟨hp, nonterminal_le h.sees⟩⟩

end Phase

section Queue

variable [ManifestHash] {ι : Type} [Fintype ι] [DecidableEq ι] {m : ℕ}

/-- What an action leaves. -/
def Queue.next (m : ℕ) (a : Action ι (Submission ⊕ Txn)) (c : Queue ι) : Queue ι where
  toConcurrent := Concurrent.next queueBody a c.toConcurrent
  passed i := ((Concurrent.next queueBody a c.toConcurrent).session i).isSome ∧
    (c.passed i ∨ Passes m a i c.toConcurrent)

/-- No transaction is open, and the queue is within its limit. -/
def Queue.idle (m : ℕ) (c : Queue ι) : Prop :=
  c.quiescent ∧ (∀ i, ¬ c.passed i) ∧ CapacityIs m c.committed ∧ nonterminal c.committed ≤ m

/-- Where an admission finds the queue below its limit, there is a place left for every
    other one that has. -/
def Queue.Room (m : ℕ) {τ : Type} (a : Action ι τ) (c : Queue ι) : Prop :=
  ∀ i, Passes m a i c.toConcurrent → nonterminal c.committed + {j | j ≠ i ∧ c.passed j}.ncard < m

/-- There is a place for every transaction that has counted. -/
structure Queue.Bounded (m : ℕ) (c : Queue ι) : Prop where
  capacity : CapacityIs m c.committed
  bound : nonterminal c.committed + {i | c.passed i}.ncard ≤ m
  locked : c.toConcurrent.Locked
  isOpen : ∀ i, c.passed i → (c.session i).isSome
  phase : ∀ i S, c.session i = some S → Phase m c.committed (c.passed i) S

variable {c : Queue ι} {a : Action ι (Submission ⊕ Txn)}

omit [ManifestHash] [DecidableEq ι] in
/-- The places stay enough, as long as nothing is committed. -/
theorem Queue.Bounded.bound_of_room (h : c.Bounded m) (hroom : c.Room m a) :
    nonterminal c.committed + {i | c.passed i ∨ Passes m a i c.toConcurrent}.ncard ≤ m := by
  by_cases hpass : ∃ i, Passes m a i c.toConcurrent
  · obtain ⟨i, hi⟩ := hpass
    have honly : ∀ j, Passes m a j c.toConcurrent → j = i := fun j hj => by
      cases a with
      | advance k => exact hj.1.symm.trans hi.1
      | _ => exact hj.elim
    have hsub : {j | c.passed j ∨ Passes m a j c.toConcurrent} ⊆
        insert i {j | j ≠ i ∧ c.passed j} := by
      rintro j (hj | hj)
      · by_cases hji : j = i
        · exact .inl hji
        · exact .inr ⟨hji, hj⟩
      · exact .inl (honly j hj)
    have hcard := (Set.ncard_le_ncard hsub (Set.toFinite _)).trans (Set.ncard_insert_le ..)
    have := hroom i hi
    omega
  · have heq : {j | c.passed j ∨ Passes m a j c.toConcurrent} = {j | c.passed j} :=
      Set.ext fun j => or_iff_left fun hj => hpass ⟨j, hj⟩
    rw [heq]
    exact h.bound

/-- What remains to be shown of an action that commits nothing. -/
theorem Queue.Bounded.of_uncommitted (h : c.Bounded m) (hroom : c.Room m a)
    (hcommitted : (Queue.next m a c).committed = c.committed)
    (hphase : ∀ i S, (Queue.next m a c).session i = some S →
      Phase m c.committed ((Queue.next m a c).passed i) S) : (Queue.next m a c).Bounded m := by
  refine ⟨hcommitted ▸ h.capacity, ?_, h.locked.next a, fun i hi => hi.1, hcommitted ▸ hphase⟩
  rw [hcommitted]
  exact (Nat.add_le_add_left (Set.ncard_le_ncard (fun i hi => hi.2) (Set.toFinite _)) _).trans
    (h.bound_of_room hroom)

/-- An action that commits nothing leaves a transaction as it was. -/
theorem Queue.Bounded.unmoved (h : c.Bounded m) {i : ι} {S : Session Db}
    (hS' : (Queue.next m a c).session i = some S) (hS : c.session i = some S) :
    Phase m c.committed ((Queue.next m a c).passed i) S :=
  (h.phase i S hS).mono fun hp => ⟨Option.isSome_iff_exists.2 ⟨S, hS'⟩, .inl hp⟩

/-- An action on one connection that commits nothing. -/
theorem Queue.Bounded.put (h : c.Bounded m) (hroom : c.Room m a) {i : ι} {S' : Option (Session Db)}
    (hnext : (Queue.next m a c).toConcurrent = c.toConcurrent.put i S')
    (hphase : ∀ S, (Queue.next m a c).session i = some S → S' = some S →
      Phase m c.committed ((Queue.next m a c).passed i) S) : (Queue.next m a c).Bounded m := by
  refine h.of_uncommitted hroom (by rw [hnext]; rfl) fun j S hj => ?_
  have hj' := hj
  rw [hnext] at hj'
  by_cases hji : j = i
  · subst hji
    rw [Concurrent.session_put_self] at hj'
    exact hphase S hj hj'
  · rw [Concurrent.session_put_of_ne hji] at hj'
    exact h.unmoved hj hj'

section Commit

variable {i : ι} {S : Session Db} (hS : c.session i = some S)
    (hcommit : ∃ v, S.rest = .done (.commit v))
  (hnext : (Queue.next m (.advance i) c).toConcurrent =
    { c.toConcurrent.put i none with committed := S.view c.committed })
include hS hcommit hnext

/-- A commit lets no other transaction pass. -/
theorem Queue.passed_of_commit {j : ι} (hj : (Queue.next m (.advance i) c).passed j) :
    j ≠ i ∧ c.passed j := by
  obtain ⟨hopen, hj⟩ := hj
  refine ⟨fun hji => ?_, hj.resolve_right fun hpass => ?_⟩
  · change ((Queue.next m (.advance i) c).toConcurrent.session j).isSome at hopen
    rw [hnext, hji] at hopen
    simp [Concurrent.put] at hopen
  · obtain ⟨rfl, ⟨T, hT, k, hk⟩, -⟩ := hpass
    obtain rfl : S = T := Option.some_inj.1 (hS.symm.trans hT)
    obtain ⟨v, hv⟩ := hcommit
    cases hv.symm.trans hk

/-- A commit takes the place of its transaction, if it takes one. -/
theorem Queue.Bounded.bound_of_commit (h : c.Bounded m) :
    nonterminal (S.view c.committed) + {j | (Queue.next m (.advance i) c).passed j}.ncard ≤ m := by
  have hpassed {j : ι} (hj : (Queue.next m (.advance i) c).passed j) : j ≠ i ∧ c.passed j :=
    Queue.passed_of_commit hS hcommit hnext hj
  have hbound := h.bound
  rcases ((h.phase i S hS).view h.capacity).2 with hle | ⟨hp, hle⟩
  · have hcard : {j | (Queue.next m (.advance i) c).passed j}.ncard ≤ {j | c.passed j}.ncard :=
      Set.ncard_le_ncard (fun j hj => (hpassed hj).2) (Set.toFinite _)
    omega
  · have hcard : {j | (Queue.next m (.advance i) c).passed j}.ncard ≤
        ({j | c.passed j} \ {i}).ncard :=
      Set.ncard_le_ncard (fun j hj => ⟨(hpassed hj).2, (hpassed hj).1⟩) (Set.toFinite _)
    have hone := Set.ncard_sdiff_singleton_add_one (s := {j | c.passed j}) hp (Set.toFinite _)
    omega

/-- A commit keeps the bound: only one that has counted in turn adds to the queue. -/
theorem Queue.Bounded.commit (h : c.Bounded m) : (Queue.next m (.advance i) c).Bounded m := by
  have hcommitted : (Queue.next m (.advance i) c).committed = S.view c.committed := by rw [hnext]
  have hcap := ((h.phase i S hS).view h.capacity).1
  have hlocked : (Queue.next m (.advance i) c).Locked :=
    @Concurrent.Locked.next _ _ _ _ _ queueBody _ _ _ h.locked (.advance i)
  refine ⟨hcommitted ▸ hcap, ?_, hlocked, fun j hj => hj.1, fun j T hj => ?_⟩
  · rw [hcommitted]
    exact h.bound_of_commit hS hcommit hnext
  have hj' := hj
  rw [hnext] at hj'
  have hji : j ≠ i := by
    rintro rfl
    simp [Concurrent.put] at hj'
  have hT : c.session j = some T := (Concurrent.session_put_of_ne hji none).symm.trans hj'
  rw [hcommitted]
  -- the rows that are committed are not held by the others
  refine ((h.phase j T hT).commit (h.locked.covered j T hT) fun w hw hheld => ?_).mono fun hp =>
    ⟨Option.isSome_iff_exists.2 ⟨T, hj⟩, .inl hp⟩
  exact h.locked.apart i j hji.symm w.1 (Concurrent.held_of_session hS ▸ h.locked.covered i S hS w hw)
    (Concurrent.held_of_session hT ▸ hheld)

end Commit

/-- Every action in turn keeps the bound. -/
theorem Queue.Bounded.next (h : c.Bounded m) (hroom : c.Room m a) : (Queue.next m a c).Bounded m := by
  have heffect := Concurrent.effect queueBody c.toConcurrent a
  have hnext : (Queue.next m a c).toConcurrent = Concurrent.next queueBody a c.toConcurrent := rfl
  rw [← hnext] at heffect
  generalize hc' : (Queue.next m a c).toConcurrent = c' at heffect
  cases heffect with
  | idle =>
    exact h.of_uncommitted hroom (congrArg Concurrent.committed hc') fun i S hS =>
      h.unmoved hS (by rwa [hc'] at hS)
  | start i t _ =>
    refine h.put hroom hc' fun S _ hS => ?_
    cases hS
    cases t with
    | inl t => exact .early (admitGeneration_early ..)
    | inr t => exact .quiet (.of_nil (t.body_keeps.mono capacityRel_of_lifecycle))
  | drop _ i => exact h.put hroom hc' fun S _ hS => by cases hS
  | statement i q k H W o hS ho =>
    refine h.put hroom hc' fun S hj hS' => ?_
    have hopen := Option.isSome_iff_exists.2 ⟨S, hj⟩
    cases hS'
    exact (h.phase i _ hS).step ho h.capacity (fun hp => ⟨hopen, .inl hp⟩) fun hcounts hn =>
      ⟨hopen, .inr ⟨rfl, ⟨_, hS, hcounts⟩, hn⟩⟩
  | commit i S hS hcommit => exact h.commit hS hcommit hc'

omit [ManifestHash] [DecidableEq ι] in
/-- With a place for every connection, no admission has to wait. -/
theorem Queue.room_of_card (h : nonterminal c.committed + Fintype.card ι ≤ m) : c.Room m a := by
  intro i _
  have hsub : insert i {j | j ≠ i ∧ c.passed j} ⊆ Set.univ := Set.subset_univ _
  have hcard := Set.ncard_le_ncard hsub (Set.toFinite _)
  rw [Set.ncard_insert_of_notMem (fun hi => hi.1 rfl) (Set.toFinite _), Set.ncard_univ,
    Nat.card_eq_fintype_card] at hcard
  omega

/-- In every interleaving in which an admission finds the queue below its limit only while
    there is a place left for every other one that has, the capacity holds. -/
theorem capacity_held {c : Queue ι} (hc : Machine.Reachable (Queue.idle m)
    (Machine.Fires (Queue.next m) (Queue.Room m)) c) : nonterminal c.committed ≤ m := by
  have hbounded : c.Bounded m := by
    refine Machine.Reachable.invariant (I := Queue.Bounded m) ?_ ?_ hc
    · rintro c ⟨hquiet, hnone, hcap, hle⟩
      refine ⟨hcap, ?_, .of_quiescent hquiet, fun i hi => absurd hi (hnone i), fun i S hS => ?_⟩
      · simpa [hnone] using hle
      · cases (hquiet i).symm.trans hS
    · rintro c _ _ hok ⟨a, hroom, rfl⟩
      exact hok.next hroom
  exact (Nat.le_add_right ..).trans hbounded.bound

end Queue

namespace Sample

/-- A `Submit` of the sample request. -/
def submission (id : Uuid) : Submission := { keyedSubmission id with request := request }

/-- A capacity of two Generations. -/
def narrow : Op := .updateSettings { TenantSettings.default with maxQueuedGenerations := 2 }

/-- What two connections do in a queue with that capacity. -/
def admissions (actions : List (Action (Fin 2) (Submission ⊕ Txn))) : Concurrent Db (Fin 2) :=
  Machine.run (Concurrent.next (@queueBody manifestHash)) ⟨after [narrow], fun _ => none⟩ actions

end Sample

set_option maxRecDepth 4000 in
/-- Two admissions see the last free place, and both take it. -/
theorem capacity_exceeded : ∃ c : Concurrent Db (Fin 2),
    Machine.Reachable (fun c => c.quiescent ∧ CapacityIs 2 c.committed ∧ nonterminal c.committed ≤ 2)
      (Machine.Fires (Concurrent.next (@queueBody Sample.manifestHash)) fun _ _ => True) c ∧
    2 < nonterminal c.committed := by
  let actions : List (Action (Fin 2) (Submission ⊕ Txn)) := [.start 0 (.inl (Sample.submission 51)),
    .start 1 (.inl (Sample.submission 52)), .advance 0, .advance 0, .advance 1, .advance 1] ++
    List.replicate 3 (.advance 0) ++ List.replicate 3 (.advance 1)
  have hstart : CapacityIs 2 (Sample.after [Sample.narrow]) ∧
      nonterminal (Sample.after [Sample.narrow]) ≤ 2 := by decide +kernel
  have hend : nonterminal (Sample.admissions actions).committed = 3 := by decide +kernel
  exact ⟨Sample.admissions actions, Machine.reachable_run (.init ⟨fun _ => rfl, hstart⟩) _
    (Machine.allowed_of_forall (fun _ _ => trivial) _ _), by rw [hend]; decide⟩

set_option maxRecDepth 4000 in
/-- An admission among the statements of a lease, with places to spare. -/
theorem capacity_held_spare :
    let actions : List (Action (Fin 2) (Submission ⊕ Txn)) := [.start 0 (.inl (Sample.submission 51)),
      .start 1 (.inr (.tryAssign ⟨11, 21, 31⟩ 41 0 true)), .advance 0, .advance 1, .advance 0,
        .advance 1] ++
      List.replicate 3 (.advance 0) ++ List.replicate 8 (.advance 1)
    nonterminal (Machine.run (@Queue.next Sample.manifestHash (Fin 2) _ _ 1000)
      ⟨⟨Sample.after [], fun _ => none⟩, fun _ => False⟩ actions).committed ≤ 1000 := by
  let _ := Sample.manifestHash
  intro actions
  have hstart : CapacityIs 1000 (Sample.after []) ∧ nonterminal (Sample.after []) ≤ 1000 := by
    decide +kernel
  have hroom : Machine.Allowed (Queue.next 1000) (fun _ c => nonterminal c.committed + 2 ≤ 1000)
      (⟨⟨Sample.after [], fun _ => none⟩, fun _ => False⟩ : Queue (Fin 2)) actions := by
        decide +kernel
  refine capacity_held (Machine.reachable_run (.init ⟨fun _ => rfl, fun _ => id, hstart⟩) actions ?_)
  exact Machine.allowed_mono (fun _ _ => Queue.room_of_card) _ _ hroom

end Gpq
