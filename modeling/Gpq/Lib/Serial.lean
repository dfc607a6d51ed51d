import Gpq.Lib.Calls

/-!
# Serial interleavings

An interleaving of calls (`Gpq.Lib.Calls`) in which a call runs its first statement only
while no other is under way (`Traced.Apart`) has the effect of its calls one after the
other: whatever ends next either left everything as it was, or committed what its body does
when it is run in one go (`Call.Alone`). `Traced.Serial` is the invariant, and
`Traced.Serial.next` what one action adds.
-/

namespace Sql

open Function

section Defs

variable {σ : Type} [Database σ] {ι τ : Type} (body : τ → Transaction σ)

/-- The transaction of a call that has run no statement yet. -/
def Session.fresh (t : τ) : Session σ := ⟨(body t).2, [], []⟩

/-- The call has run a statement and is not over. -/
def Traced.UnderWay (c : Traced σ ι τ) (i : ι) : Prop :=
  ∃ S x, c.session i = some S ∧ c.running i = some x ∧ S ≠ .fresh body x.1

/-- A call runs its first statement only while no other is under way. -/
def Traced.Apart (a : Action ι τ) (c : Traced σ ι τ) : Prop :=
  ∀ i, a = .advance i → ¬ c.UnderWay body i → ∀ j, j ≠ i → ¬ c.UnderWay body j

/-- A call that committed did what its body does in one go; any other did nothing. -/
structure Call.Alone (e : Call σ τ) : Prop where
  committed : ∀ v, e.ending = some v → v.commits →
    Session.result (.fresh body e.txn) e.found = .ok (v, e.left)
  dropped : (∀ v, e.ending = some v → v.commits = false) → e.left = e.found

/-- One call at most is under way, and the rest of its body comes to what the body comes to. -/
structure Traced.Serial (c : Traced σ ι τ) : Prop where
  running : ∀ i S, c.session i = some S → ∃ x, c.running i = some x ∧
    S.result c.committed = Session.result (.fresh body x.1) c.committed
  alone : ∀ i j, c.UnderWay body i → c.UnderWay body j → i = j

/-- What an action adds to the calls that are over. -/
def Traced.Extends (c c' : Traced σ ι τ) : Prop :=
  c'.committed = c.committed ∧ c'.log = c.log ∨
    ∃ e, c'.log = c.log ++ [e] ∧ e.found = c.committed ∧ e.left = c'.committed ∧ e.Alone body

end Defs

variable {σ : Type} [Database σ] {ι τ : Type} {body : τ → Transaction σ}

namespace Traced

variable {c : Traced σ ι τ}

/-- A call that is not under way holds no row. -/
theorem Serial.held_eq_nil (h : c.Serial body) {j : ι} (hj : ¬ c.UnderWay body j) :
    c.held j = [] := by
  cases hS : c.session j with
  | none => simp [Concurrent.held, hS]
  | some S =>
    obtain ⟨x, hx, -⟩ := h.running j S hS
    have hfresh : S = .fresh body x.1 := by
      by_contra hne
      exact hj ⟨S, x, hS, hx, hne⟩
    simp [Concurrent.held, hS, hfresh, Session.fresh]

/-- Where nobody is in a transaction, everything is serial so far. -/
theorem Serial.of_idle (h : c.idle) : c.Serial body := by
  obtain ⟨hq, hrun, -⟩ := h
  refine ⟨fun i S hS => ?_, ?_⟩
  · rw [hq i] at hS
    cases hS
  · rintro i - ⟨S, x, hS, -⟩
    rw [hq i] at hS
    cases hS

/-- No other call is under way when a statement runs. -/
theorem Serial.others (h : c.Serial body) {i : ι} (ha : Apart body (.advance i) c) (j : ι)
    (hj : j ≠ i) :
    ¬ c.UnderWay body j := by
  by_cases hi : c.UnderWay body i
  · exact fun hway => hj (h.alone j i hway hi)
  · exact ha i rfl hi j hj

variable [DecidableEq ι]

/-- One connection goes on, or is done, and nothing else happens. -/
theorem Serial.put (h : c.Serial body) {i : ι} {c' : Traced σ ι τ} {o : Option (Session σ)}
    (hsession : c'.session = update c.session i o) (hrunning : c'.running = c.running)
    (hcommitted : ∀ j, c.UnderWay body j → j ≠ i → c'.committed = c.committed)
    (hothers : o.isSome → ∀ j, j ≠ i → ¬ c.UnderWay body j)
    (hresult : ∀ S, o = some S → ∃ x, c.running i = some x ∧
      S.result c'.committed = Session.result (.fresh body x.1) c'.committed) : c'.Serial body := by
  have hfar : ∀ j, j ≠ i → c'.session j = c.session j := fun j hj => by rw [hsession, update_of_ne hj]
  have hnear : c'.session i = o := by rw [hsession, update_self]
  have hway : ∀ j, j ≠ i → c'.UnderWay body j → c.UnderWay body j := by
    rintro j hj ⟨S, x, hS, hx, hne⟩
    exact ⟨S, x, hfar j hj ▸ hS, hrunning ▸ hx, hne⟩
  refine ⟨fun j S hS => ?_, fun j k hj hk => ?_⟩
  · by_cases hj : j = i
    · subst hj
      rw [hrunning]
      exact hresult S (hnear ▸ hS)
    · rw [hfar j hj] at hS
      obtain ⟨x, hx, hres⟩ := h.running j S hS
      refine ⟨x, hrunning ▸ hx, ?_⟩
      by_cases hfresh : S = .fresh body x.1
      · rw [hfresh]
      · rw [hcommitted j ⟨S, x, hS, hx, hfresh⟩ hj]
        exact hres
  · by_cases hji : j = i
    · by_cases hki : k = i
      · rw [hji, hki]
      · refine absurd (hway k hki hk) (hothers ?_ k hki)
        obtain ⟨S, -, hS, -⟩ := hj
        rw [← hnear, ← hji, hS]
        rfl
    · by_cases hki : k = i
      · refine absurd (hway j hji hj) (hothers ?_ j hji)
        obtain ⟨S, -, hS, -⟩ := hk
        rw [← hnear, ← hki, hS]
        rfl
      · exact h.alone j k (hway j hji hj) (hway k hki hk)

/-- A call begins. -/
theorem Serial.start (h : c.Serial body) {i : ι} {t : τ} :
    Serial body { c.put i (some (.fresh body t)) with
      running := update c.running i (some (t, c.committed))
      log := c.log } := by
  have hway : ∀ j, UnderWay body { c.put i (some (.fresh body t)) with
      running := update c.running i (some (t, c.committed))
      log := c.log } j → c.UnderWay body j := by
    rintro j ⟨S, x, hS, hx, hne⟩
    by_cases hj : j = i
    · subst hj
      cases (update_self ..).symm.trans hS
      cases (update_self ..).symm.trans hx
      exact absurd rfl hne
    · exact ⟨S, x, (update_of_ne hj ..).symm.trans hS, (update_of_ne hj ..).symm.trans hx, hne⟩
  refine ⟨fun j S hS => ?_, fun j k hj hk => h.alone j k (hway j hj) (hway k hk)⟩
  by_cases hj : j = i
  · subst hj
    cases (update_self ..).symm.trans hS
    exact ⟨_, update_self .., rfl⟩
  · obtain ⟨x, hx, hres⟩ := h.running j S ((update_of_ne hj ..).symm.trans hS)
    exact ⟨x, (update_of_ne hj ..).trans hx, hres⟩

variable [Fintype ι] [DecidableEq (Key σ)]

/-- The end of a transaction, or a statement of it. -/
theorem Serial.advance (h : c.Serial body) {i : ι} (ha : Apart body (.advance i) c) :
    (next body (.advance i) c).Serial body ∧ Extends body c (next body (.advance i) c) := by
  have hothers := h.others ha
  cases hS : c.session i with
  | none =>
    have hsame : c.toConcurrent.advance i = c.toConcurrent := by simp [Concurrent.advance, hS]
    have hnext : next body (.advance i) c = c := by simp [Traced.next, hS, hsame]
    rw [hnext]
    exact ⟨h, .inl ⟨rfl, rfl⟩⟩
  | some S =>
    obtain ⟨x, hx, hresult⟩ := h.running i S hS
    -- the connection is done, and its call goes on the record
    have hover : ∀ c' : Concurrent σ ι, c.toConcurrent.advance i = c' →
        c'.session = update c.session i none →
        (Call.mk x.1 x.2 c.committed c'.committed S.ending).Alone body →
        (next body (.advance i) c).Serial body ∧ Extends body c (next body (.advance i) c) := by
      rintro c' hc' hsession halone
      have hnone : c'.session i = none := by rw [hsession, update_self]
      have hnext : next body (.advance i) c = c.record i S.ending c' := by
        simp [Traced.next, hc', hS, hnone]
      rw [hnext]
      refine ⟨h.put hsession rfl (fun j hj hji => absurd hj (hothers j hji)) (by simp) (by simp),
        .inr ?_⟩
      exact ⟨_, by simp [record, hx], rfl, rfl, halone⟩
    cases hend : S.ending with
    | some v =>
      have hc' := Concurrent.advance_of_ending hS hend
      refine hover _ hc' rfl ⟨fun v' hv' hcommits => ?_, fun hdropped => ?_⟩
      · rw [hend] at hv'
        cases hv'
        rw [← hresult]
        obtain ⟨rest, H, W⟩ := S
        cases rest with
        | step q k => cases hend
        | done v' =>
          cases hend
          simp [Session.result, Session.view, Ending.leaves, hcommits, Except.map]
      · have hcommits := hdropped v hend
        simp [Ending.leaves, hcommits]
    | none =>
      obtain ⟨S', hadvance, hgoes⟩ | ⟨e, herr, hadvance⟩ :=
        Concurrent.advance_alone hS hend fun j hj =>
        h.held_eq_nil (hothers j hj)
      · have hsession : (c.toConcurrent.put i (some S')).session i = some S' := update_self ..
        have hnext : next body (.advance i) c =
            { c with toConcurrent := c.toConcurrent.put i (some S') } := by
          simp [Traced.next, hadvance, hS, hsession]
        rw [hnext]
        refine ⟨h.put rfl rfl (fun _ _ _ => rfl) (fun _ => hothers) ?_, .inl ⟨rfl, rfl⟩⟩
        rintro _ ⟨⟩
        exact ⟨x, hx, hgoes.trans hresult⟩
      · refine hover _ hadvance rfl ⟨fun v hv => ?_, fun _ => rfl⟩
        rw [hend] at hv
        cases hv

/-- What one action adds. -/
theorem Serial.next (h : c.Serial body) {a : Action ι τ} (ha : Apart body a c) :
    (next body a c).Serial body ∧ Extends body c (next body a c) := by
  cases a with
  | advance i => exact h.advance ha
  | start i t =>
    cases hS : c.session i with
    | some S =>
      have hnext : Traced.next body (.start i t) c = c := by simp [Traced.next, hS]
      rw [hnext]
      exact ⟨h, .inl ⟨rfl, rfl⟩⟩
    | none =>
      have hnext : Traced.next body (.start i t) c =
          { c.put i (some (.fresh body t)) with
            running := update c.running i (some (t, c.committed))
            log := c.log } := by
        simp [Traced.next, hS, Session.fresh]
      rw [hnext]
      exact ⟨h.start, .inl ⟨rfl, rfl⟩⟩
  | abort i =>
    cases hS : c.session i with
    | none =>
      have hnext : Traced.next body (.abort i) c = c := by simp [Traced.next, hS]
      rw [hnext]
      exact ⟨h, .inl ⟨rfl, rfl⟩⟩
    | some S =>
      obtain ⟨x, hx, -⟩ := h.running i S hS
      have hnext : Traced.next body (.abort i) c = c.record i none (c.put i none) := by
        simp [Traced.next, hS]
      rw [hnext]
      refine ⟨h.put rfl rfl (fun _ _ _ => rfl) (by simp) (by simp), .inr ?_⟩
      exact ⟨⟨x.1, x.2, c.committed, c.committed, none⟩, by simp [record, hx, Concurrent.put],
        rfl, rfl, ⟨fun v hv => (by cases hv), fun _ => rfl⟩⟩

end Traced

end Sql
