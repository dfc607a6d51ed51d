import Gpq.Lifecycle.Safety

/-!
# Retries

How often and where a Generation is attempted:

  * `attempts_numbered`: its Attempts carry the numbers from one to its count, which
    stays within the limit, so a queued Generation can always be leased once more.
-/

namespace Gpq

open Sql DbKey

/-! ## Numbers -/

/-- The numbers of a Generation's Attempts. -/
def attemptNumbers (db : Db) (g : Uuid) : List ℕ :=
  (db.attempts.rows.filter fun e => e.2.generationId = g).map fun e => e.2.attemptNumber

/-- Whether an operation is a report that no longer advertises one of the Worker's Pools. -/
def Op.dropsPool [ManifestHash] (op : Op) (db : Db) : Bool :=
  match op with
  | capabilityReport w pools => !(droppedPools db w.workerId pools).isEmpty
  | _ => false

section Numbers

variable {db : Db}

theorem number_life_iff {a g : Uuid} {n : ℕ} : (life db).number a = some (g, n) ↔
    ∃ r, fetch db (attempt a) = some r ∧ r.generationId = g ∧ r.attemptNumber = n := by
  simp only [Life.number, life, Option.map_map, Option.map_eq_some_iff, Function.comp_apply,
    Prod.mk.injEq]
  rfl

theorem mem_attemptNumbers {g : Uuid} {n : ℕ} :
    n ∈ attemptNumbers db g ↔ ∃ a, (life db).number a = some (g, n) := by
  simp only [attemptNumbers, List.mem_map, List.mem_filter, decide_eq_true_eq, Prod.exists,
    number_life_iff, Table.mem_rows, and_assoc]
  rfl

/-- Numbers without repetitions, row by row. -/
theorem nodup_attemptNumbers (h : (life db).Numbered) (g : Uuid) : (attemptNumbers db g).Nodup := by
  refine List.Nodup.map_on (fun e he e' he' heq => ?_) ?_
  · obtain ⟨hmem, hg⟩ := List.mem_filter.1 he
    obtain ⟨hmem', hg'⟩ := List.mem_filter.1 he'
    have hrow : fetch db (attempt e.1) = some e.2 := Table.mem_rows.1 hmem
    have hrow' : fetch db (attempt e'.1) = some e'.2 := Table.mem_rows.1 hmem'
    have hkey : e.1 = e'.1 := h.2 _ _ (g, e.2.attemptNumber)
      (number_life_iff.2 ⟨e.2, hrow, of_decide_eq_true hg, rfl⟩)
      (number_life_iff.2 ⟨e'.2, hrow', of_decide_eq_true hg', heq.symm⟩)
    rw [hkey, hrow', Option.some_inj] at hrow
    exact Prod.ext hkey hrow.symm
  · exact (List.Nodup.of_map _ db.attempts.rows_nodup_keys).filter _

/-- The Attempts of a Generation have the numbers from one to its count. -/
theorem attemptNumbers_perm (h : (life db).Numbered) {g : Uuid} {row : GenerationRow}
    (hrow : fetch db (generation g) = some row) :
    (attemptNumbers db g).Perm (List.range' 1 row.attemptCount) := by
  refine (List.perm_ext_iff_of_nodup (nodup_attemptNumbers h g) List.nodup_range').2 fun n => ?_
  rw [mem_attemptNumbers, ← h.1 g row.life n (life_gen_of_fetch hrow), List.mem_range'_1,
    Nat.add_comm, Nat.lt_succ_iff]
  rfl

end Numbers

/-- What one operation that drops no Pool keeps. -/
theorem numbered_apply [ManifestHash] {db : Db} (op : Op) (hop : op.dropsPool db = false)
    (hs : (life db).Sound) (h : (life db).Budgeted ∧ (life db).Numbered) :
    (life (op.apply db)).Budgeted ∧ (life (op.apply db)).Numbered := by
  cases op.effect db with
  | core hpath =>
    exact (Machine.preserved_of_path (I := fun l => l.Sound ∧ l.Budgeted ∧ l.Numbered)
      (fun _ _ hl hstep => ⟨hstep.sound hl.1, hstep.budgeted hl.2.1,
        hstep.numbered hl.1.wellReferenced hl.1.current hl.2.2⟩) ⟨hs, h⟩ hpath).2
  | late w a now he hcur r hr hw hlate => exact ⟨hlate.budgeted h.1, hlate.numbering.numbered h.2⟩
  | report w pools he hrep =>
    subst he
    have hnil : droppedPools db w.workerId pools = [] := by
      simpa [Op.dropsPool] using hop
    have hdrop := hrep.drop
    rw [hnil] at hdrop
    refine Machine.preserved_of_path (I := fun l : DbLife => l.Budgeted ∧ l.Numbered)
      (fun _ _ hl hstep => ⟨hstep.budgeted hl.1, hstep.numbered hl.2⟩) ?_ hrep.refresh
    rw [hnil, hdrop.eq_of_nil]
    exact h

/-- What every operation keeps of the numbers. -/
theorem capped_apply [ManifestHash] {db : Db} (op : Op) (hs : (life db).Sound)
    (h : (life db).Budgeted ∧ (life db).Capped) :
    (life (op.apply db)).Budgeted ∧ (life (op.apply db)).Capped := by
  cases op.effect db with
  | core hpath =>
    exact (Machine.preserved_of_path (I := fun l => l.Sound ∧ l.Budgeted ∧ l.Capped)
      (fun _ _ hl hstep => ⟨hstep.sound hl.1, hstep.budgeted hl.2.1,
        hstep.capped hl.1.wellReferenced hl.1.current hl.2.2⟩) ⟨hs, h⟩ hpath).2
  | late w a now he hcur r hr hw hlate => exact ⟨hlate.budgeted h.1, hlate.numbering.capped h.2⟩
  | report w pools he hrep =>
    exact Machine.preserved_of_path (I := fun l : DbLife => l.Budgeted ∧ l.Capped)
      (fun _ _ hl hstep => ⟨hstep.budgeted hl.1, hstep.capped hl.2⟩)
      ⟨hrep.drop.budgeted h.1, hrep.drop.capped h.2⟩ hrep.refresh

section Create

variable {db : Db} (id g w p : Uuid) (slotKey : String) (expiry now : Time)

/-- `create` finds no Attempt too many where a queued Generation is below the limit. -/
theorem create_ne_maxAttemptsReached
    (h : ∀ row, fetch db (generation g) = some row → row.state = .queued →
      row.attemptCount < maxAttempts) (n : ℕ) (db' : Db) :
    (Attempts.create id g w p slotKey expiry now).run db ≠
      .ok (.error (.maxAttemptsReached n), db') := by
  intro hrun
  have hne : (Attempts.create id g w p slotKey expiry now).Ensures ⊤
      (fun out _ => out ≠ .error (.maxAttemptsReached n)) db := by
    unfold Attempts.create NativeExclusions.excludedPools
    simp only [Prog.bind_eq, Prog.exec_bind, Prog.pure_eq]
    refine Prog.ensures_lock (fun row hrow _ => ?_) fun _ => nofun
    dsimp only
    split
    · exact nofun
    rename_i hq
    refine Prog.ensures_read ?_
    split
    · exact nofun
    split
    · rename_i hmax
      exact absurd (h row hrow (not_not.1 hq)) (Nat.not_lt.2 (Nat.lt_succ_iff.1 hmax))
    refine Prog.ensures_require fun _ => Prog.ensures_write fun _ _ _ => ⟨fun _ => trivial, ?_⟩
    exact Prog.ensures_update (fun _ _ _ => ⟨trivial, nofun⟩) fun _ => nofun
  exact hne.of_run hrun rfl

/-- No Attempt of the Generation has a number that is not among theirs. -/
theorem any_attemptNumber_eq_false {n : ℕ} (h : n ∉ attemptNumbers db g) :
    (db.attempts.rows.any fun e => e.2.generationId = g && e.2.attemptNumber = n) = false := by
  rw [List.any_eq_false]
  rintro e he heq
  simp only [Bool.and_eq_true, decide_eq_true_eq] at heq
  exact h (List.mem_map.2 ⟨e, List.mem_filter.2 ⟨he, decide_eq_true heq.1⟩, heq.2⟩)

/-- An insertion violates no uniqueness where its identifier and number are new. -/
theorem insert_ne_unique {n : ℕ} (hid : fetch db (attempt id) = none)
    (h : n ∉ attemptNumbers db g) :
    (Attempts.insert id g n w p slotKey expiry now).run db ≠ .error .unique := by
  rw [Attempts.insert, Stmt.require]
  dsimp only [Stmt.write]
  rw [hid, any_attemptNumber_eq_false g h]
  simp only [Option.isSome_none, Bool.or_self, Bool.false_eq_true, if_false]
  split_ifs <;> simp [Except.map]

/-- `create` violates no uniqueness where the identifier and the next number are new. -/
theorem create_ne_unique (hid : fetch db (attempt id) = none)
    (h : ∀ row, fetch db (generation g) = some row →
      row.attemptCount + 1 ∉ attemptNumbers db g) :
    (Attempts.create id g w p slotKey expiry now).run db ≠ .error .unique := by
  unfold Attempts.create NativeExclusions.excludedPools
  simp only [Prog.bind_eq, Prog.exec_bind, Prog.pure_eq]
  refine Prog.run_step_lock_ne_error (fun row hrow _ => ?_) fun _ => nofun
  dsimp only
  split
  · exact nofun
  rw [Prog.run_step_read]
  split
  · exact nofun
  split
  · exact nofun
  have hins := insert_ne_unique id g w p slotKey expiry now hid (h row hrow)
  rw [Prog.run_step]
  split
  · rename_i e he
    rw [he] at hins
    simpa using hins
  · rw [Prog.run_step_update]
    split <;> exact nofun

end Create

section Runs

variable [ManifestHash] {db : Db}

/-- What every run that drops no Pool keeps. -/
theorem sound_numbered_of_reachesBy (h : ReachesBy (fun op db => op.dropsPool db = false) db) :
    (life db).Sound ∧ (life db).Budgeted ∧ (life db).Numbered := by
  refine Machine.Reachable.invariant (I := fun db => (life db).Sound ∧ (life db).Budgeted ∧
    (life db).Numbered) ?_ ?_ h
  · rintro _ ⟨tenantId, rfl⟩
    exact ⟨sound_initial tenantId, nofun, nofun, nofun⟩
  · rintro db _ - hI ⟨op, hop, rfl⟩
    exact ⟨sound_apply op hI.1, numbered_apply op hop hI.1 hI.2⟩

/-- What every run keeps of the numbers. -/
theorem budgeted_capped_of_reachesBy {allowed : Op → Db → Prop} (h : ReachesBy allowed db) :
    (life db).Budgeted ∧ (life db).Capped := by
  refine (Machine.Reachable.invariant (I := fun db => (life db).Sound ∧ (life db).Budgeted ∧
    (life db).Capped) ?_ ?_ h).2
  · rintro _ ⟨tenantId, rfl⟩
    exact ⟨sound_initial tenantId, nofun, nofun, nofun⟩
  · rintro db _ - hI ⟨op, -, rfl⟩
    exact ⟨sound_apply op hI.1, capped_apply op hI.1 hI.2⟩

/-- Attempt budget and numbering. While no Pool is dropped, a Generation's count stays
    within the limit of three, is below it while the Generation is queued, and its Attempts
    are numbered from one to the count. So creating the next Attempt, over these rows and
    whatever the other tables hold by then, never finds the limit reached, and violates
    no uniqueness where its identifier is new. -/
theorem attempts_numbered (h : ReachesBy (fun op db => op.dropsPool db = false) db)
    (g : Uuid) (row : GenerationRow) (hrow : fetch db (generation g) = some row) :
    row.attemptCount ≤ 3 ∧
    (row.state = .queued → row.attemptCount ≤ 2) ∧
    (attemptNumbers db g).Perm (List.range' 1 row.attemptCount) ∧
    ∀ s : Db, s.generations = db.generations → s.attempts = db.attempts →
      ∀ (id w p : Uuid) (slotKey : String) (expiry now : Time),
        (∀ n s', (Attempts.create id g w p slotKey expiry now).run s ≠
          .ok (.error (.maxAttemptsReached n), s')) ∧
        (fetch db (attempt id) = none →
          (Attempts.create id g w p slotKey expiry now).run s ≠ .error .unique) := by
  obtain ⟨-, hbudget, hnum⟩ := sound_numbered_of_reachesBy h
  have hperm := attemptNumbers_perm hnum hrow
  obtain ⟨hle, hlt⟩ := hbudget g row.life (life_gen_of_fetch hrow)
  refine ⟨hle, fun hq => Nat.lt_succ_iff.1 (hlt hq), hperm, fun s hgens hatts id w p slotKey expiry
    now => ?_⟩
  have hgen : fetch s (generation g) = some row := by
    rw [← hrow]
    exact congrArg (fun t => AList.lookup g t) hgens
  refine ⟨fun n s' => create_ne_maxAttemptsReached _ _ _ _ _ _ _ (fun row' hrow' hq => ?_) n s',
    fun hid => create_ne_unique _ _ _ _ _ _ _ ?_ fun row' hrow' hmem => ?_⟩
  · obtain rfl : row' = row := Option.some_inj.1 (hrow'.symm.trans hgen)
    exact hlt hq
  · rw [← hid]
    exact congrArg (fun t => AList.lookup id t) hatts
  · obtain rfl : row' = row := Option.some_inj.1 (hrow'.symm.trans hgen)
    rw [attemptNumbers, hatts, ← attemptNumbers, hperm.mem_iff, List.mem_range'_1] at hmem
    omega

end Runs

/-- After a lease expiry and a second lease there are Attempts one and two. -/
theorem attempts_numbered_retried : ∃ row,
    fetch (Sample.after Sample.retried) (generation 31) = some row ∧ row.attemptCount = 2 ∧
      (attemptNumbers (Sample.after Sample.retried) 31).Perm [1, 2] := by
  have hallowed : Machine.Allowed (@Op.apply Sample.manifestHash)
      (fun op db => @Op.dropsPool Sample.manifestHash op db = false) (.initial 1)
      (Sample.setUp ++ Sample.retried) := by
    let _ := Sample.manifestHash
    decide +kernel
  have hcount : (fetch (Sample.after Sample.retried) (generation 31)).map
      (fun row => row.attemptCount) = some 2 := by decide +kernel
  obtain ⟨row, hrow, hcount⟩ := Option.map_eq_some_iff.1 hcount
  have hperm := (@attempts_numbered Sample.manifestHash _ (@reachesBy_run Sample.manifestHash _ 1 _
    hallowed) 31 row hrow).2.2.1
  rw [hcount] at hperm
  exact ⟨row, hrow, hcount, hperm⟩

end Gpq
