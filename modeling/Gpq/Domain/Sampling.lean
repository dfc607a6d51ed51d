import Gpq.Domain.Manifest

/-!
# Sampling resolution

The sampling of a request is fixed by its schedule where it has one, and by its step count or
the preset's otherwise.

* `sigmaStepCount_eq_ok_iff`: which schedules have a step count, and which;
* `SamplingPreset.resolve_spec`: when a preset and overrides resolve, and to what;
* `SamplingPreset.resolve_rejects_long`: a schedule may be too long for its step count.
-/

namespace Gpq

/-- The schedules that the runtime follows: none, or at least two finite values with a step count
    of 32 bits. -/
structure IsSchedule (sigmas : List F32) : Prop where
  finite : ∀ s ∈ sigmas, s.isFinite
  length : sigmas = [] ∨ 2 ≤ sigmas.length ∧ sigmas.length ≤ 2 ^ 32

/-- A step count agrees with a schedule: there is none, or it has that many steps. -/
def Follows (sigmas : List F32) (steps : UInt32) : Prop :=
  sigmas ≠ [] → steps.toNat = sigmas.length - 1

/-- The step count that a schedule fixes. -/
def scheduledSteps (sigmas : List F32) : Option UInt32 :=
  if sigmas = [] then none else some (UInt32.ofNat (sigmas.length - 1))

/-- Sigmas are counted exactly if they are a schedule, by the number of its steps. -/
theorem sigmaStepCount_eq_ok_iff {sigmas : List F32} {n : Option UInt32} :
    sigmaStepCount sigmas = .ok n ↔ IsSchedule sigmas ∧ n = scheduledSteps sigmas := by
  rw [sigmaStepCount, scheduledSteps]
  split
  · -- a sigma that is not finite is refused
    rename_i hinfinite
    refine iff_of_false nofun fun h => ?_
    obtain ⟨s, hs, hnot⟩ := List.any_eq_true.1 hinfinite
    rw [h.1.finite s hs] at hnot
    cases hnot
  rename_i hfinite
  have hfinite : ∀ s ∈ sigmas, s.isFinite := by simpa using hfinite
  split
  · -- no sigmas say nothing about the steps
    rename_i hempty
    rw [if_pos (List.isEmpty_iff.1 hempty)]
    constructor
    · rintro ⟨⟩
      exact ⟨⟨hfinite, .inl (List.isEmpty_iff.1 hempty)⟩, rfl⟩
    · rintro ⟨-, rfl⟩
      rfl
  rename_i hne
  have hne : sigmas ≠ [] := fun h => hne (List.isEmpty_iff.2 h)
  rw [if_neg hne]
  split
  · -- one sigma alone makes no step
    rename_i hshort
    refine iff_of_false nofun fun h => ?_
    rcases h.1.length with hnil | hlength
    · exact hne hnil
    · omega
  rename_i hlong
  split
  · -- the count is one less than the length, and must fit into a `u32`
    rename_i hfits
    constructor
    · rintro ⟨⟩
      exact ⟨⟨hfinite, .inr ⟨by omega, by omega⟩⟩, rfl⟩
    · rintro ⟨-, rfl⟩
      rfl
  · rename_i hoverflow
    refine iff_of_false nofun fun h => ?_
    rcases h.1.length with hnil | hlength
    · exact hne hnil
    · omega

/-- A step count agrees with a schedule exactly where it does not contradict the scheduled one. -/
theorem follows_iff {sigmas : List F32} (h : IsSchedule sigmas) {steps : UInt32} :
    Follows sigmas steps ↔ ∀ n ∈ scheduledSteps sigmas, n = steps := by
  rw [Follows, scheduledSteps]
  split
  · rename_i hnil
    exact iff_of_true (fun hne => absurd hnil hne) nofun
  · rename_i hne
    have hlength : sigmas.length - 1 < 2 ^ 32 := by
      rcases h.length with hnil | hlength
      · exact absurd hnil hne
      · omega
    have htoNat : (UInt32.ofNat (sigmas.length - 1)).toNat = sigmas.length - 1 :=
      UInt32.toNat_ofNat_of_lt' hlength
    constructor
    · rintro hsteps _ ⟨⟩
      exact UInt32.toNat_inj.1 (htoNat.trans (hsteps hne).symm)
    · rintro hsteps -
      rw [← hsteps _ rfl, htoNat]

/-- A valid manifest has a valid preset. -/
theorem ModelManifest.validate_sampling {self : ModelManifest} (h : self.validate = .ok ()) :
    self.sampling.validate = .ok () := by
  unfold ModelManifest.validate at h
  simp only [bind, Except.bind, throw, throwThe, MonadExceptOf.throw, pure, Except.pure] at h
  cases hsampling : self.sampling.validate with
  | error e =>
    rw [hsampling] at h
    split at h <;> cases h
  | ok u => rfl

namespace SamplingPreset

/-- The presets that are valid by themselves. -/
structure Valid (preset : SamplingPreset) : Prop where
  steps : preset.steps ≠ 0
  cfgScale : preset.cfgScale.isFinite
  schedule : IsSchedule preset.sigmas
  follows : Follows preset.sigmas preset.steps

/-- A preset is accepted exactly if it is valid. -/
theorem validate_eq_ok_iff {self : SamplingPreset} : self.validate = .ok () ↔ self.Valid := by
  unfold validate
  simp only [bind, Except.bind, throw, throwThe, MonadExceptOf.throw, pure, Except.pure]
  split
  · rename_i hsteps
    exact iff_of_false nofun fun h => h.steps hsteps
  rename_i hsteps
  split
  · rename_i hinfinite
    refine iff_of_false nofun fun h => ?_
    rw [h.cfgScale] at hinfinite
    cases hinfinite
  rename_i hfinite
  have hfinite : self.cfgScale.isFinite := by simpa using hfinite
  cases hcount : sigmaStepCount self.sigmas with
  | error e =>
    refine iff_of_false nofun fun h => ?_
    have hok := sigmaStepCount_eq_ok_iff.2 ⟨h.schedule, rfl⟩
    rw [hcount] at hok
    cases hok
  | ok n =>
    obtain ⟨hschedule, rfl⟩ := sigmaStepCount_eq_ok_iff.1 hcount
    have hany : (scheduledSteps self.sigmas).any (· != self.steps) = true ↔
        ¬ Follows self.sigmas self.steps := by
      rw [follows_iff hschedule, Option.any_eq_true]
      push Not
      simp
    dsimp only
    split
    · rename_i hmismatch
      exact iff_of_false nofun fun h => hany.1 hmismatch h.follows
    · rename_i hfollows
      exact iff_of_true rfl ⟨hsteps, hfinite, hschedule, not_not.1 fun h => hfollows (hany.2 h)⟩

/-- The schedule that a request runs with: its own where it gives one. -/
def selected (self : SamplingPreset) (sigmas : Option (List F32)) : List F32 :=
  (sigmas.filter (!·.isEmpty)).getD self.sigmas

/-- The overrides that a preset takes. -/
structure Takes (preset : SamplingPreset) (steps : Option UInt32) (cfgScale : Option F32)
    (sigmas : Option (List F32)) : Prop where
  valid : preset.Valid
  positive : steps ≠ some 0
  finite : ∀ x ∈ cfgScale, x.isFinite
  schedule : IsSchedule (preset.selected sigmas)
  follows : ∀ n ∈ steps, Follows (preset.selected sigmas) n

variable {self : SamplingPreset} {steps : Option UInt32} {cfgScale : Option F32}
    {sigmas : Option (List F32)}

theorem eq_of_fields {r : ResolvedSampling} {steps : UInt32} {cfgScale : F32} {sigmas : List F32}
    (h : r.steps = steps ∧ r.cfgScale = cfgScale ∧ r.sigmas = sigmas) :
    ⟨steps, cfgScale, sigmas⟩ = r := by
  obtain ⟨rfl, rfl, rfl⟩ := h
  rfl

/-- The overrides of a request are resolved exactly if the preset takes them: to the steps of the
    schedule where there is one, and else to those that were asked for. -/
theorem resolve_eq_ok_iff {r : ResolvedSampling} : self.resolve steps cfgScale sigmas = .ok r ↔
    self.Takes steps cfgScale sigmas ∧
    r.steps = (scheduledSteps (self.selected sigmas)).getD (steps.getD self.steps) ∧
      r.cfgScale = cfgScale.getD self.cfgScale ∧ r.sigmas = self.selected sigmas := by
  unfold resolve
  simp only [bind, Except.bind, throw, throwThe, MonadExceptOf.throw, pure, Except.pure]
  cases hvalidate : self.validate with
  | error e =>
    refine iff_of_false nofun fun h => ?_
    rw [validate_eq_ok_iff.2 h.1.valid] at hvalidate
    cases hvalidate
  | ok u =>
    have hvalid := validate_eq_ok_iff.1 hvalidate
    dsimp only
    split
    · -- no steps were asked for
      rename_i hzero
      exact iff_of_false nofun fun h => h.1.positive hzero
    rename_i hsteps
    split
    · -- the scale that was asked for is not finite
      rename_i hinfinite
      refine iff_of_false nofun fun h => ?_
      obtain ⟨x, hx, hnot⟩ := (Option.any_eq_true _ _).1 hinfinite
      rw [h.1.finite x hx] at hnot
      cases hnot
    rename_i hfinite
    have hfinite : ∀ x ∈ cfgScale, x.isFinite := by
      rintro x rfl
      simpa using hfinite
    have hselected : (sigmas.filter (!·.isEmpty)).getD self.sigmas = self.selected sigmas := rfl
    rw [hselected]
    cases hcount : sigmaStepCount (self.selected sigmas) with
    | error e =>
      refine iff_of_false nofun fun h => ?_
      rw [sigmaStepCount_eq_ok_iff.2 ⟨h.1.schedule, rfl⟩] at hcount
      cases hcount
    | ok n =>
      obtain ⟨hschedule, rfl⟩ := sigmaStepCount_eq_ok_iff.1 hcount
      have htakes (h : ∀ n ∈ steps, Follows (self.selected sigmas) n) : self.Takes steps cfgScale
          sigmas :=
        ⟨hvalid, hsteps, hfinite, hschedule, h⟩
      simp only [follows_iff hschedule] at htakes
      cases hscheduled : scheduledSteps (self.selected sigmas) with
      | none =>
        -- without a schedule every step count agrees
        rw [hscheduled] at htakes
        constructor
        · rintro ⟨⟩
          exact ⟨htakes fun _ _ => nofun, rfl, rfl, rfl⟩
        · rintro ⟨-, hr⟩
          exact congrArg Except.ok (eq_of_fields hr)
      | some scheduled =>
        rw [hscheduled] at htakes
        dsimp only
        split
        · -- the steps that were asked for are not those of the schedule
          rename_i hmismatch
          refine iff_of_false nofun fun h => ?_
          obtain ⟨n, hn, hne⟩ := (Option.any_eq_true _ _).1 hmismatch
          rw [(follows_iff hschedule).1 (h.1.follows n hn) scheduled hscheduled] at hne
          simp at hne
        · rename_i hagrees
          constructor
          · rintro ⟨⟩
            refine ⟨htakes ?_, rfl, rfl, rfl⟩
            rintro n rfl _ ⟨⟩
            by_contra hne
            exact hagrees (by simpa using Ne.symm hne)
          · rintro ⟨-, hr⟩
            exact congrArg Except.ok (eq_of_fields hr)

/-- When a preset and overrides resolve, and to what: to a positive step count, which is that of
    the schedule where there is one. A valid manifest resolves to its own sampling. -/
theorem resolve_spec (self : SamplingPreset) (steps : Option UInt32) (cfgScale : Option F32)
    (sigmas : Option (List F32)) :
    ((∃ r, self.resolve steps cfgScale sigmas = .ok r) ↔ self.Takes steps cfgScale sigmas) ∧
    (∀ r, self.resolve steps cfgScale sigmas = .ok r →
      r.steps ≠ 0 ∧ Follows (self.selected sigmas) r.steps ∧
      (self.selected sigmas = [] → r.steps = steps.getD self.steps) ∧
      r.cfgScale = cfgScale.getD self.cfgScale ∧ r.sigmas = self.selected sigmas) ∧
    (∀ manifest : ModelManifest, manifest.validate = .ok () →
      manifest.sampling.resolve none none none =
        .ok ⟨manifest.sampling.steps, manifest.sampling.cfgScale, manifest.sampling.sigmas⟩) := by
  refine ⟨?_, fun r hr => ?_, fun manifest hmanifest => ?_⟩
  · constructor
    · rintro ⟨r, hr⟩
      exact (resolve_eq_ok_iff.1 hr).1
    · intro htakes
      exact ⟨⟨_, _, _⟩, resolve_eq_ok_iff.2 ⟨htakes, rfl, rfl, rfl⟩⟩
  · obtain ⟨htakes, hsteps, hcfgScale, hsigmas⟩ := resolve_eq_ok_iff.1 hr
    have hfollows : Follows (self.selected sigmas) r.steps :=
        (follows_iff htakes.schedule).2 fun n hn => by
      rw [hn] at hsteps
      exact hsteps.symm
    have hdefault (hnil : self.selected sigmas = []) : r.steps = steps.getD self.steps := by
      rw [hsteps, scheduledSteps, if_pos hnil, Option.getD_none]
    refine ⟨?_, hfollows, hdefault, hcfgScale, hsigmas⟩
    rcases htakes.schedule.length with hnil | hlength
    · rw [hdefault hnil]
      rcases steps with _ | n
      · exact htakes.valid.steps
      · exact fun h => htakes.positive (congrArg some h)
    · intro hzero
      have hcount := hfollows (List.ne_nil_of_length_pos (by omega))
      rw [hzero] at hcount
      simp only [UInt32.toNat_zero] at hcount
      omega
  · have hvalid := validate_eq_ok_iff.1 (ModelManifest.validate_sampling hmanifest)
    refine resolve_eq_ok_iff.2 ⟨⟨hvalid, nofun, nofun, hvalid.schedule, nofun⟩, ?_, rfl, rfl⟩
    rcases hscheduled : scheduledSteps manifest.sampling.sigmas with _ | n
    · rw [selected, Option.filter_none, Option.getD_none, hscheduled]
      rfl
    · rw [selected, Option.filter_none, Option.getD_none, hscheduled]
      exact ((follows_iff hvalid.schedule).1 hvalid.follows n hscheduled).symm

/-- A valid preset does not take every finite schedule of two or more values: the step count of a
    long one has more than 32 bits. -/
theorem resolve_rejects_long :
    let preset : SamplingPreset := ⟨40, 0x40C00000#32, []⟩
    let sigmas : List F32 := List.replicate (2 ^ 32 + 1) 0
    preset.validate = .ok () ∧ (∀ s ∈ sigmas, s.isFinite) ∧ 2 ≤ sigmas.length ∧
    ¬ ∃ r, preset.resolve none none (some sigmas) = .ok r := by
  intro preset sigmas
  have hlength : sigmas.length = 2 ^ 32 + 1 := List.length_replicate
  have hne : sigmas.isEmpty = false := by
    rw [List.isEmpty_eq_false_iff, ← List.length_pos_iff, hlength]
    omega
  refine ⟨by decide, fun s hs => ?_, by omega, ?_⟩
  · rw [List.eq_of_mem_replicate hs]
    decide
  · rintro ⟨r, hr⟩
    have hselected : preset.selected (some sigmas) = sigmas := by
      rw [selected, Option.filter_some, hne]
      rfl
    have hschedule := (resolve_eq_ok_iff.1 hr).1.schedule
    rw [hselected] at hschedule
    rcases hschedule.length with hnil | hfits
    · rw [hnil] at hlength
      cases hlength
    · omega

end SamplingPreset

end Gpq
