import Gpq.Lib.ReadCommitted
import Gpq.Remote.Events
import Gpq.Remote.System

/-!
# The event log

Transactions that append events, and write none otherwise (`Appends`), number the events of
each Generation from one on without a gap, in every interleaving of their statements. The
log of a Generation only grows at its end, so a reader that goes on where it stopped misses
nothing (`events_in_sequence`).

An append serialises on the Generation's row; what keeps the numbers apart is the uniqueness
of a number, which an append that finds no row to lock meets as well.
-/

namespace Gpq

open Sql EventKey Prog

/-! ## The log in one database -/

/-- The events of each Generation are numbered from one on without a gap. -/
def Gapless (db : EventDb) : Prop :=
  ∀ g, ∃ n, ∀ k, (fetch db (event g k)).isSome ↔ 1 ≤ k ∧ k ≤ n

section Stream

variable {db db' : EventDb} {g : Uuid} {n : ℕ}

/-- A Generation has an event under each of the first `n` numbers, and no other. -/
abbrev Numbered (db : EventDb) (g : Uuid) (n : ℕ) : Prop :=
  ∀ k, (fetch db (event g k)).isSome ↔ 1 ≤ k ∧ k ≤ n

/-- The stream of a Generation has its rows, with their numbers. -/
theorem mem_stream {e : ℕ × EventRow} :
    e ∈ Events.stream g db ↔ fetch db (event g e.1) = some e.2 := by
  rw [Events.stream, List.mem_insertionSort, List.mem_map]
  constructor
  · rintro ⟨⟨⟨g', k⟩, r⟩, he, rfl⟩
    obtain ⟨hmem, hg⟩ := List.mem_filter.1 he
    obtain rfl : g' = g := of_decide_eq_true hg
    exact Table.mem_rows.1 hmem
  · intro h
    exact ⟨((g, e.1), e.2), List.mem_filter.2 ⟨Table.mem_rows.2 h, by simp⟩, rfl⟩

/-- The numbers of the events, in order. -/
theorem stream_numbers (h : Numbered db g n) :
    (Events.stream g db).map Prod.fst = List.range' 1 n := by
  have hsorted : ((Events.stream g db).map Prod.fst).Pairwise (· ≤ ·) := by
    have : Std.Total fun a b : ℕ × EventRow => a.1 ≤ b.1 := ⟨fun a b => Nat.le_total a.1 b.1⟩
    have : IsTrans (ℕ × EventRow) fun a b => a.1 ≤ b.1 := ⟨fun _ _ _ => Nat.le_trans⟩
    exact List.pairwise_map.2 (List.pairwise_insertionSort _ _)
  have hnodup : ((Events.stream g db).map Prod.fst).Nodup := by
    refine ((List.perm_insertionSort _ _).map Prod.fst).nodup_iff.2 ?_
    rw [List.map_map]
    refine List.Nodup.map_on (fun e he e' he' heq => ?_) ?_
    · obtain ⟨hmem, hg⟩ := List.mem_filter.1 he
      obtain ⟨hmem', hg'⟩ := List.mem_filter.1 he'
      have hkey : e.1 = e'.1 :=
        Prod.ext ((of_decide_eq_true hg).trans (of_decide_eq_true hg').symm) heq
      have hrow := Table.mem_rows.1 (show (e.1, e.2) ∈ db.events.rows from hmem)
      have hrow' := Table.mem_rows.1 (show (e'.1, e'.2) ∈ db.events.rows from hmem')
      rw [hkey, hrow', Option.some_inj] at hrow
      exact Prod.ext hkey hrow.symm
    · exact (List.Nodup.of_map _ db.events.rows_nodup_keys).filter _
  refine List.Perm.eq_of_pairwise (fun a b _ _ hab hba => Nat.le_antisymm hab hba) hsorted
    ((List.pairwise_lt_range' (s := 1) (n := n)).imp Nat.le_of_lt) ?_
  refine (List.perm_ext_iff_of_nodup hnodup List.nodup_range').2 fun k => ?_
  rw [List.mem_range'_1, List.mem_map]
  constructor
  · rintro ⟨e, he, rfl⟩
    have hk := (h e.1).1 (by rw [mem_stream.1 he]; rfl)
    omega
  · intro hk
    obtain ⟨r, hr⟩ := Option.isSome_iff_exists.1 ((h k).2 (by omega))
    exact ⟨(k, r), mem_stream.2 hr, rfl⟩

/-- The largest number is the number of rows. -/
theorem maxSequence_eq (h : Numbered db g n) : Events.maxSequence g db = n := by
  rw [Events.maxSequence, stream_numbers h]
  refine Nat.le_antisymm (List.max_le_of_forall_le _ _ fun k hk => ?_) ?_
  · have := List.mem_range'_1.1 hk
    omega
  · rcases Nat.eq_zero_or_pos n with rfl | hn
    · exact Nat.zero_le _
    · exact List.le_max_of_le (List.mem_range'_1.2 (by omega)) le_rfl

/-- Where events only come and stay, the log grows at its end. -/
theorem stream_prefix {m : ℕ} (h : Numbered db g n) (h' : Numbered db' g m)
    (hkept : ∀ k r, fetch db (event g k) = some r → fetch db' (event g k) = some r) :
    Events.stream g db <+: Events.stream g db' := by
  have hnm : n ≤ m := by
    rcases Nat.eq_zero_or_pos n with rfl | hn
    · exact Nat.zero_le m
    obtain ⟨r, hr⟩ := Option.isSome_iff_exists.1 ((h n).2 ⟨hn, le_rfl⟩)
    exact ((h' n).1 (by rw [hkept n r hr]; rfl)).2
  have hlen : (Events.stream g db).length = n := by
    simpa using congrArg List.length (stream_numbers h)
  have hlen' : (Events.stream g db').length = m := by
    simpa using congrArg List.length (stream_numbers h')
  have hfst : ∀ {d : EventDb} {l : ℕ}, Numbered d g l → ∀ i (hi : i < (Events.stream g d).length),
      ((Events.stream g d)[i]).1 = 1 + i := by
    intro d l hd i hi
    have hget : ((Events.stream g d).map Prod.fst)[i]? = (List.range' 1 l)[i]? := by
      rw [stream_numbers hd]
    have hlen : (Events.stream g d).length = l := by
      simpa using congrArg List.length (stream_numbers hd)
    have hil : i < l := hlen ▸ hi
    simpa [hi, hil] using hget
  refine List.prefix_iff_getElem.2 ⟨by omega, fun i hi => ?_⟩
  have hmem := mem_stream.1 (List.getElem_mem hi)
  have hmem' := mem_stream.1 (List.getElem_mem (show i < (Events.stream g db').length by omega))
  rw [hfst h] at hmem
  rw [hfst h'] at hmem'
  refine Prod.ext ((hfst h i hi).trans (hfst h' i (by omega)).symm) ?_
  exact Option.some_inj.1 ((hkept _ _ hmem).symm.trans hmem')

end Stream

/-! ## Appends -/

/-- A transaction whose only writes to the log are appends. -/
inductive Appends : {α : Type} → Prog EventDb α → Prop
  | done {α : Type} (a : α) : Appends (.done a)
  | append {α : Type} (g : Uuid) (kind : EventKind) (payload : Json) (now : Time)
      (k : ℕ → Prog EventDb α) (h : ∀ n, Appends (k n)) :
      Appends ((Events.append g kind payload now).bind k)
  /-- A statement that may write Generations, but deletes none. -/
  | other {α β : Type} (q : Stmt EventDb β) (k : β → Prog EventDb α)
      (hq : ∀ db o, q.run db = .ok o → ∀ w ∈ o.writes, ∃ g r, w = ⟨generation g, some r⟩)
      (h : ∀ b, Appends (k b)) : Appends (.step q k)

/-- The announcement of an Attempt is an append. -/
theorem Appends.attemptCreated {α : Type} (g attemptId : Uuid) (attemptNumber : ℕ)
    (workerId poolId : Uuid) (now : Time) (k : ℕ → Prog EventDb α) (h : ∀ n, Appends (k n)) :
    Appends ((Events.appendAttemptCreated g attemptId attemptNumber workerId poolId now).bind k) :=
  .append g .attemptCreated _ now k h

/-- An event stays as it is once it is there. -/
def EventStays : (k : EventKey) → Option (EventDb.Row k) → Option (EventDb.Row k) → Prop
  | .generation _, _, _ => True
  | .event .., o, o' => ∀ r ∈ o, o' = some r

/-- What transactions that append keep: no gap, and every event. -/
def eventDiscipline : Discipline EventDb where
  inv := Gapless
  rely := EventStays
  guards _ _ _ := True
  moves _ _ := True
  may _ _ := True
  rely_refl k o := by
    cases k with
    | generation g => trivial
    | event g n => exact fun r hr => hr
  rely_trans k o₁ o₂ o₃ h h' := by
    cases k with
    | generation g => trivial
    | event g n => exact fun r hr => h' r (h r hr)
  guards_refl _ _ := trivial
  guards_trans _ _ _ _ _ _ _ := trivial
  guards_applyAll _ _ _ _ _ _ _ := trivial
  moves_refl _ := trivial
  moves_trans _ _ _ _ _ := trivial

section Sound

variable {db : EventDb} {g : Uuid} {n : ℕ}

/-- The next event leaves no gap. -/
theorem commit_next (hs : Gapless db) (hn : Numbered db g n)
    (r : EventRow) {H : List EventKey} :
    eventDiscipline.Commit H db (store db (event g (n + 1)) (some r)) where
  inv g' := by
    by_cases hg : g' = g
    · subst hg
      refine ⟨n + 1, fun k => ?_⟩
      by_cases hk : k = n + 1
      · subst hk
        rw [Database.fetch_store_self]
        exact ⟨fun _ => ⟨by omega, le_rfl⟩, fun _ => rfl⟩
      · rw [Database.fetch_store_of_ne db _ (fun he => hk (EventKey.event.inj he).2), hn k]
        omega
    · obtain ⟨m, hm⟩ := hs g'
      refine ⟨m, fun k => ?_⟩
      rw [Database.fetch_store_of_ne db _ (fun he => hg (EventKey.event.inj he).1), hm k]
  rely k := by
    cases k with
    | generation g' => trivial
    | event g' k =>
      intro r' hr'
      have hne : event g' k ≠ event g (n + 1) := by
        rintro ⟨⟩
        have := (hn (n + 1)).1 (by rw [hr']; rfl)
        omega
      rw [Database.fetch_store_of_ne db _ hne]
      exact hr'
  guards _ _ := trivial
  moves := trivial

/-- An append takes the next number: the Generation's row is locked, so that nobody else takes it. -/
theorem append_sound (g : Uuid) (kind : EventKind) (payload : Json) (now : Time) :
    Sound eventDiscipline (Events.append g kind payload now) := by
  -- the row may be missing: then nothing is locked, and the number alone is
  have hrest : ∀ H s, eventDiscipline.inv s → ((exec (.tryRead fun db =>
      let sequence := Events.maxSequence g db + 1
      if sequence > i64Max then .error DbError.decode else .ok sequence)).bind fun sequence =>
      (exec (.write fun db =>
        if (fetch db (generation g)).isNone then .error DbError.foreignKey
        else if (fetch db (event g sequence)).isSome then .error DbError.unique
        else .ok ((),
          [⟨event g sequence, some { kind, payload, createdAt := now : EventRow }⟩]))).bind
          fun _ => done sequence).Safe eventDiscipline
      (fun _ H W s => True → eventDiscipline.Kept H W s) H [] s := by
    intro H s _
    refine safe_tryRead fun s₁ sequence henv₁ hseq => safe_write fun s₂ _ ws henv₂ hws => ?_
    obtain ⟨n, hn⟩ := henv₁.inv g
    -- the number that was read is the next one, in the state of the read
    have hsequence : sequence = n + 1 := by
      rw [applyAll_nil] at hseq
      dsimp only at hseq
      split at hseq
      · cases hseq
      · cases hseq
        rw [maxSequence_eq hn]
    subst hsequence
    rw [applyAll_nil] at hws
    split at hws
    · cases hws
    split at hws
    · cases hws
    rename_i hnew
    cases hws
    intro s₃ henv₃ _ s₄ henv₄
    -- the number is still free, and those below it are still taken
    have hfree : fetch s₄ (event g (n + 1)) = none := by
      rw [henv₄.held _ (by simp), henv₃.held _ (by simp)]
      simpa using hnew
    have hstays : ∀ k, (fetch s₁ (event g k)).isSome → (fetch s₄ (event g k)).isSome := by
      intro k hk
      obtain ⟨r, hr⟩ := Option.isSome_iff_exists.1 hk
      have hr₂ : fetch s₂ (event g k) = some r := henv₂.rely (event g k) r hr
      have hr₃ : fetch s₃ (event g k) = some r := henv₃.rely (event g k) r hr₂
      have hr₄ : fetch s₄ (event g k) = some r := henv₄.rely (event g k) r hr₃
      rw [hr₄]
      rfl
    obtain ⟨m, hm⟩ := henv₄.inv g
    -- what was appended since would have taken the number
    have hmn : m = n := by
      refine Nat.le_antisymm ?_ ?_
      · by_contra hlt
        have := (hm (n + 1)).2 ⟨by omega, by omega⟩
        simp [hfree] at this
      · rcases Nat.eq_zero_or_pos n with rfl | hpos
        · exact Nat.zero_le m
        · exact ((hm n).1 (hstays n ((hn n).2 ⟨hpos, le_rfl⟩))).2
    subst hmn
    exact commit_next henv₄.inv hm _
  intro H s hs
  exact safe_lock (fun s' r henv _ _ => hrest _ s' henv.inv) fun s' henv => hrest _ s' henv.inv

/-- A transaction that only appends events keeps all streams without gaps. -/
theorem Appends.sound {α : Type} {p : Prog EventDb α} (h : Appends p) (P : α → Prop) :
    p.SoundWhen eventDiscipline P := by
  induction h with
  | done a => exact .done a
  | append g kind payload now k _ ih => exact .bind (append_sound g kind payload now) fun n => ih n
  | other q k hq _ ih =>
    refine .bind (sound_exec fun s o hs ho s' henv => ?_) fun b => ih b
    have hevent : ∀ (s : EventDb) g n,
        fetch (applyAll s o.writes) (event g n) = fetch s (event g n) := by
      refine fun s g n => fetch_applyAll_of_notMem s fun w hw he => ?_
      obtain ⟨g', r, rfl⟩ := hq _ o ho w hw
      cases he
    refine ⟨fun g => ?_, fun k => ?_, fun _ _ => trivial, trivial⟩
    · obtain ⟨n, hn⟩ := henv.inv g
      exact ⟨n, fun k => by rw [hevent]; exact hn k⟩
    · cases k with
      | generation g => trivial
      | event g n =>
        rw [hevent]
        exact fun r hr => hr

end Sound

/-! ## Interleavings -/

/-- Every interleaving of transactions that append, from an empty log on. -/
abbrev LogReaches {ι τ : Type} [Fintype ι] [DecidableEq ι] (body : τ → Transaction EventDb) :
    Concurrent EventDb ι → Prop :=
  Machine.Reachable (fun c => c.committed.events = ∅ ∧ c.quiescent)
    (Machine.Fires (Concurrent.next body) fun _ _ => True)

section Interleaving

variable {ι τ : Type} [Fintype ι] [DecidableEq ι] {body : τ → Transaction EventDb}
  {c c' : Concurrent EventDb ι}

/-- An empty log has no gaps. -/
theorem gapless_of_empty {db : EventDb} (h : db.events = ∅) : Gapless db := by
  refine fun g => ⟨0, fun k => ?_⟩
  have hnone : fetch db (event g k) = none := by
    change db.events.lookup (g, k) = none
    rw [h]
    rfl
  rw [hnone]
  simp
  omega

theorem safe_of_logReaches (hbody : ∀ t, Appends (body t).2) (hc : LogReaches body c) :
    c.Safe eventDiscipline :=
  Concurrent.safe (fun (s : EventDb) (hs : s.events = ∅) => gapless_of_empty hs)
    (fun t => (hbody t).sound _)
      (hc.mono fun _ _ ⟨a, _, he⟩ => ⟨a,
        by cases a <;> simp [Discipline.Permits, eventDiscipline], he⟩)

/-- The log of a Generation in sequence: its committed events are numbered from one on without
    a gap or a duplicate; later ones come after them; and a reader that has read the log, or what is
    in it after `afterSequence`, and goes on from the last number, misses none. -/
theorem events_in_sequence (hbody : ∀ t, Appends (body t).2) (hc : LogReaches body c)
    (hc' : Relation.ReflTransGen (Machine.Fires (Concurrent.next body) fun _ _ => True) c c')
    (g : Uuid) :
    (Events.stream g c.committed).map Prod.fst = List.range' 1 (Events.maxSequence g c.committed) ∧
    Events.stream g c.committed <+: Events.stream g c'.committed ∧
    Events.stream g c.committed ++
      Events.loadSince g (Events.maxSequence g c.committed) c'.committed =
      Events.stream g c'.committed ∧
    ∀ afterSequence ≤ (Events.maxSequence g c.committed : ℤ),
      Events.loadSince g afterSequence c.committed ++
          Events.loadSince g (Events.maxSequence g c.committed) c'.committed =
        Events.loadSince g afterSequence c'.committed := by
  have hsafe := safe_of_logReaches hbody hc
  have hpermits : ∀ c c' : Concurrent EventDb ι,
      Machine.Fires (Concurrent.next body) (fun _ _ => True) c c' →
      Machine.Fires (Concurrent.next body) eventDiscipline.Permits c c' := fun _ _ ⟨a, _, he⟩ =>
    ⟨a, by cases a <;> simp [Discipline.Permits, eventDiscipline], he⟩
  obtain ⟨hsafe', hsince⟩ := Concurrent.since hsafe (fun t => (hbody t).sound _)
    (Relation.ReflTransGen.mono hpermits _ _ hc')
  obtain ⟨n, hn⟩ := hsafe.inv g
  obtain ⟨m, hm⟩ := hsafe'.inv g
  have hpre := stream_prefix hn hm fun k r hr => hsince.rely (event g k) r hr
  rw [maxSequence_eq hn]
  refine ⟨stream_numbers hn, hpre, ?_⟩
  obtain ⟨rest, hrest⟩ := hpre
  -- what is new is numbered after what was there
  have hold : ∀ e ∈ Events.stream g c.committed, e.1 ≤ n := fun e he =>
    ((hn e.1).1 (by rw [mem_stream.1 he]; rfl)).2
  have hnew : ∀ e ∈ rest, n < e.1 := by
    intro e he
    have hnumbers := stream_numbers hm
    rw [← hrest, List.map_append, stream_numbers hn] at hnumbers
    have hsorted : (List.range' 1 n ++ rest.map Prod.fst).Pairwise (· < ·) :=
      hnumbers ▸ List.pairwise_lt_range'
    have hpos : 1 ≤ e.1 := by
      have hmem : e.1 ∈ List.range' 1 m := hnumbers ▸ List.mem_append_right _ (List.mem_map_of_mem he)
      exact (List.mem_range'_1.1 hmem).1
    rcases Nat.eq_zero_or_pos n with rfl | hn₀
    · exact hpos
    · exact (List.pairwise_append.1 hsorted).2.2 n (List.mem_range'_1.2 (by omega)) _
        (List.mem_map_of_mem he)
  have hfilter : (Events.stream g c.committed).filter (fun e => (n : ℤ) < e.1) = [] :=
    List.filter_eq_nil_iff.2 fun e he => by simpa using hold e he
  have hall : ∀ a ≤ (n : ℤ), rest.filter (fun e => a < (e.1 : ℤ)) = rest := fun a ha =>
    List.filter_eq_self.2 fun e he => by
      have := hnew e he
      simp only [decide_eq_true_eq]
      omega
  have hload : Events.loadSince g n c'.committed = rest := by
    rw [Events.loadSince, ← hrest, List.filter_append, hfilter, hall _ le_rfl]
    rfl
  rw [hload]
  refine ⟨hrest, fun afterSequence hafter => ?_⟩
  rw [Events.loadSince, Events.loadSince, ← hrest, List.filter_append, hall _ hafter]

end Interleaving

namespace Sample

/-- A queued Generation. -/
def queuedRow : GenerationRow where
  state := .queued
  aliasName := "qwen"
  versionSha256 := 0
  parameters := request.parameters
  priority := 5
  seed := none
  executionTimeout := 1
  outputPlacement := .workerLocal
  createdAt := 0
  execution_timeout_check := by decide
  output_placement_check := by decide
  accepted_check := by decide
  failed_check := by decide

/-- A transaction for each kind of event: one admits a Generation and announces it, one reports
    progress, one announces an Attempt. -/
def announcing : EventKind → Transaction EventDb
  | .stateChanged => ⟨ℕ,
      (exec (.write fun _ => .ok ((), [⟨generation 31, some queuedRow⟩]))).bind fun _ =>
      (Events.append 31 .stateChanged .null 0).bind fun n => done (.commit n)⟩
  | .progress => ⟨ℕ, (Events.append 31 .progress .null 0).bind fun n => done (.commit n)⟩
  | .attemptCreated => ⟨ℕ,
    (Events.appendAttemptCreated 31 41 1 11 21 0).bind fun n => done (.commit n)⟩

/-- The transactions that announce something append events only. -/
theorem appends_announcing : ∀ t, Appends (announcing t).2
  | .stateChanged => by
    -- the row of the Generation is written besides
    refine .other _ _ (fun db o ho w hw => ?_) fun _ => .append _ _ _ _ _ fun n => .done _
    cases ho
    exact ⟨31, queuedRow, List.mem_singleton.1 hw⟩
  | .progress => .append _ _ _ _ _ fun n => .done _
  | .attemptCreated => .attemptCreated _ _ _ _ _ _ _ fun n => .done _

/-- The Generation is admitted. -/
def admitted : List (Sql.Action (Fin 2) EventKind) :=
  .start 0 .stateChanged :: List.replicate 5 (.advance 0)

/-- Two connections report progress and announce an Attempt, a statement of one after a statement of
    the other. -/
def reported : List (Sql.Action (Fin 2) EventKind) :=
  [.start 0 .progress, .start 1 .attemptCreated, .advance 0, .advance 1, .advance 0, .advance 1,
    .advance 0, .advance 0, .advance 1, .advance 1, .advance 1, .advance 1]

/-- What is there when the Generation is admitted. -/
def admittedLog : Concurrent EventDb (Fin 2) :=
  Machine.run (Concurrent.next announcing) ⟨{}, fun _ => none⟩ admitted

/-- What the two connections leave. -/
def reportedLog : Concurrent EventDb (Fin 2) :=
  Machine.run (Concurrent.next announcing) admittedLog reported

end Sample

/-- A reader that has read the admission goes on with the two events behind it. -/
theorem events_in_sequence_reported :
    (Events.stream 31 Sample.admittedLog.committed).map Prod.fst = [1] ∧
      Events.stream 31 Sample.admittedLog.committed ++
        Events.loadSince 31 1 Sample.reportedLog.committed =
        Events.stream 31 Sample.reportedLog.committed ∧
      (Events.loadSince 31 1 Sample.reportedLog.committed).map Prod.fst = [2, 3] := by
  have hreach : LogReaches Sample.announcing Sample.admittedLog :=
    Machine.reachable_run (.init ⟨rfl, fun _ => rfl⟩) _
      (Machine.allowed_of_forall (fun _ _ => trivial) _ _)
  have hmax : Events.maxSequence 31 Sample.admittedLog.committed = 1 := by decide +kernel
  obtain ⟨hnumbers, -, hmissed, -⟩ := events_in_sequence Sample.appends_announcing hreach
    (Machine.path_run Sample.reported (Machine.allowed_of_forall (fun _ _ => trivial) _ _)) 31
  rw [hmax] at hnumbers hmissed
  exact ⟨hnumbers, hmissed, by decide +kernel⟩

end Gpq
