import Gpq.Worker.Devices

/-!
# Device selectors

A selector of a configuration is `cpu`, or a backend with digits behind it, in lower case
(`asciiLowercase_of_valid`). It names an enumerated device, or the device that the native library
knows by another name.

* `deviceOf_eq_iff`: two selectors name one device where they are the same, or where one is the
  short form of the other and no device is enumerated under the names that would tell them apart.
-/

namespace Gpq

variable {quote : String → String} {s t : String} {devices : List BackendDevice}

/-- A selector is spelled as its grammar says. -/
theorem validDeviceSelector_iff : validDeviceSelector s ↔
    s = "cpu" ∨ ∃ pre ∈ ["metal", "vulkan", "cuda"], ∃ digits : List Char,
      s.toList = pre.toList ++ digits ∧ ∀ c ∈ digits, c.isDigit := by
  have hpre (pre : String) : (stripPrefix pre s).any
      (fun suffix => suffix.toList.all Char.isDigit) = true ↔
      ∃ digits : List Char, s.toList = pre.toList ++ digits ∧ ∀ c ∈ digits, c.isDigit := by
    rw [stripPrefix]
    split
    · rename_i h
      obtain ⟨digits, hdigits⟩ := h
      rw [← hdigits, List.drop_left, Option.any_some, String.toList_ofList, List.all_eq_true]
      constructor
      · exact fun h => ⟨digits, rfl, h⟩
      · rintro ⟨digits', heq, h⟩
        rwa [List.append_cancel_left heq]
    · rename_i h
      exact ⟨nofun, fun ⟨digits, hdigits, _⟩ => absurd ⟨digits, hdigits.symm⟩ h⟩
  rw [validDeviceSelector, Bool.or_eq_true, decide_eq_true_iff, List.any_eq_true]
  simp only [hpre]

/-- Digits have no case. -/
theorem toLower_digit {c : Char} (h : c.isDigit) : c.toLower = c := by
  rw [Char.isDigit, Bool.and_eq_true, decide_eq_true_iff, decide_eq_true_iff] at h
  delta Char.toLower
  rw [dif_neg]
  rintro ⟨hle, -⟩
  exact absurd (UInt32.le_trans hle h.2) (by decide)

/-- A selector is in lower case. -/
theorem asciiLowercase_of_valid (h : validDeviceSelector s) : asciiLowercase s = s.toList := by
  rcases validDeviceSelector_iff.1 h with rfl | ⟨pre, hpre, digits, hs, hdigits⟩
  · decide
  · have hlower : ∀ pre ∈ ["metal", "vulkan", "cuda"],
        pre.toList.map Char.toLower = pre.toList := by decide
    have hdigits' : digits.map Char.toLower = digits :=
      List.map_congr_left (fun c hc => toLower_digit (hdigits c hc)) |>.trans (List.map_id digits)
    rw [asciiLowercase, hs, List.map_append, hlower pre hpre, hdigits']

/-- A selector has letters and digits only. -/
theorem alphanum_of_valid (h : validDeviceSelector s) : ∀ c ∈ s.toList, c.isAlphanum := by
  rcases validDeviceSelector_iff.1 h with rfl | ⟨pre, hpre, digits, hs, hdigits⟩
  · exact List.all_eq_true.1 (by decide)
  · have hletters : ∀ pre ∈ ["metal", "vulkan", "cuda"], ∀ c ∈ pre.toList, c.isAlphanum := by
      have hall : ∀ pre ∈ ["metal", "vulkan", "cuda"], pre.toList.all Char.isAlphanum := by decide
      exact fun pre hpre => List.all_eq_true.1 (hall pre hpre)
    intro c hc
    rw [hs, List.mem_append] at hc
    rcases hc with hc | hc
    · exact hletters pre hpre c hc
    · rw [Char.isAlphanum, hdigits c hc, Bool.or_true]

/-- The name of a device is found in any case. -/
theorem findDevice_eq_some {name : String} (h : findDevice devices s = some name) :
    name ∈ devices.map BackendDevice.name ∧ asciiLowercase name = asciiLowercase s := by
  obtain ⟨device, hdevice, rfl⟩ := Option.map_eq_some_iff.1 h
  have hsame := List.find?_some hdevice
  exact ⟨List.mem_map_of_mem (List.mem_of_find?_eq_some hdevice), of_decide_eq_true hsame⟩

/-- What a selector is found under, by its own name or the other one. -/
def deviceOf (devices : List BackendDevice) (s : String) : Option String :=
  (findDevice devices s).or ((deviceAlias s).bind (findDevice devices))

/-- A selector names its device. -/
theorem resolveDevice_eq_ok_iff {name : String} (h : validDeviceSelector s) :
    resolveDevice quote s devices = .ok name ↔ deviceOf devices s = some name := by
  have hvalid : ¬ (s = "" ∨ '&' ∈ s.toList) := by
    rintro (rfl | hmem)
    · exact absurd h (by decide)
    · exact absurd (alphanum_of_valid h _ hmem) (by decide)
  rw [resolveDevice, if_neg hvalid, deviceOf]
  split
  · rename_i device hfind
    rw [hfind, Option.some_or]
    exact ⟨fun h => congrArg some (Except.ok.inj h), fun h => congrArg Except.ok (Option.some.inj h)⟩
  · rename_i hfind
    rw [hfind, Option.none_or]
    rcases (deviceAlias s).bind (findDevice devices) with _ | device
    · exact ⟨nofun, nofun⟩
    · exact ⟨fun h => congrArg some (Except.ok.inj h),
        fun h => congrArg Except.ok (Option.some.inj h)⟩

/-- The other names that selectors have. -/
theorem deviceAlias_eq_some {name : String} (h : validDeviceSelector s)
    (halias : deviceAlias s = some name) :
    (s = "metal" ∨ s = "metal0") ∧ name = "MTL0" ∨ s = "vulkan" ∧ name = "vulkan0" ∨ s = "cuda" ∧
    name = "cuda0" := by
  have heq {t : String} (ht : validDeviceSelector t)
      (hsame : eqIgnoreAsciiCase s t = true) : s = t := by
    have hlower := of_decide_eq_true hsame
    rw [asciiLowercase_of_valid h, asciiLowercase_of_valid ht] at hlower
    exact String.toList_inj.1 hlower
  rw [deviceAlias] at halias
  split at halias
  · rename_i hmetal
    cases halias
    rcases Bool.or_eq_true_iff.1 hmetal with hmetal | hmetal
    · exact .inl ⟨.inl (heq (by decide) hmetal), rfl⟩
    · exact .inl ⟨.inr (heq (by decide) hmetal), rfl⟩
  · split at halias
    · rename_i hvulkan
      cases halias
      exact .inr (.inl ⟨heq (by decide) hvulkan, rfl⟩)
    · split at halias
      · rename_i hcuda
        cases halias
        exact .inr (.inr ⟨heq (by decide) hcuda, rfl⟩)
      · cases halias

/-- The spellings of a selector that are no names of enumerated devices, where it goes by another
    name. -/
def ownNames (normalized : String) : List String :=
  if normalized = "metal0" then ["metal", "metal0"]
  else if normalized = "vulkan0" then ["vulkan"]
  else if normalized = "cuda0" then ["cuda"]
  else []

/-- Two selectors are spellings of one device. -/
def SameDevice (devices : List BackendDevice) (s t : String) : Prop :=
  s = t ∨ normalizeDevice s = normalizeDevice t ∧ ∀ name ∈ ownNames (normalizeDevice s),
    findDevice devices name = none

/-- A selector is found under its own name, or else under the other one that it has. -/
theorem deviceOf_eq_some {name : String} (h : validDeviceSelector s)
    (hdevice : deviceOf devices s = some name) :
    asciiLowercase name = s.toList ∨
    (s = "metal" ∨ s = "metal0") ∧ findDevice devices s = none ∧ asciiLowercase name = "mtl0".toList ∨
    (s = "vulkan" ∧ findDevice devices s = none ∧ asciiLowercase name = "vulkan0".toList) ∨
    s = "cuda" ∧ findDevice devices s = none ∧ asciiLowercase name = "cuda0".toList := by
  rw [deviceOf, Option.or_eq_some_iff] at hdevice
  rcases hdevice with hfind | ⟨hnone, halias⟩
  · exact .inl ((findDevice_eq_some hfind).2.trans (asciiLowercase_of_valid h))
  · obtain ⟨other, hother, hfind⟩ := Option.bind_eq_some_iff.1 halias
    have hlower := (findDevice_eq_some hfind).2
    rcases deviceAlias_eq_some h hother with ⟨hs, rfl⟩ | ⟨hs, rfl⟩ | ⟨hs, rfl⟩
    · exact .inr (.inl ⟨hs, hnone, hlower⟩)
    · exact .inr (.inr (.inl ⟨hs, hnone, hlower⟩))
    · exact .inr (.inr (.inr ⟨hs, hnone, hlower⟩))

/-- A selector is normalized where it is a short form. -/
theorem normalizeDevice_cases (s : String) :
    normalizeDevice s = s ∨ s = "metal" ∧ normalizeDevice s = "metal0" ∨
      s = "vulkan" ∧ normalizeDevice s = "vulkan0" ∨ s = "cuda" ∧ normalizeDevice s = "cuda0" := by
  rw [normalizeDevice.eq_def]
  split
  · exact .inr (.inl ⟨rfl, rfl⟩)
  · exact .inr (.inr (.inl ⟨rfl, rfl⟩))
  · exact .inr (.inr (.inr ⟨rfl, rfl⟩))
  · exact .inl rfl

/-- Different spellings of a selector are its short form and the one with an index. -/
theorem normalizeDevice_eq (h : normalizeDevice s = normalizeDevice t) (hne : s ≠ t) :
    (s = "metal" ∧ t = "metal0" ∨ s = "metal0" ∧ t = "metal") ∨
    (s = "vulkan" ∧ t = "vulkan0" ∨ s = "vulkan0" ∧ t = "vulkan") ∨
    s = "cuda" ∧ t = "cuda0" ∨ s = "cuda0" ∧ t = "cuda" := by
  rcases normalizeDevice_cases s with hs | ⟨rfl, hs⟩ | ⟨rfl, hs⟩ | ⟨rfl, hs⟩ <;>
    rcases normalizeDevice_cases t with ht | ⟨rfl, ht⟩ | ⟨rfl, ht⟩ | ⟨rfl, ht⟩ <;>
    simp_all

theorem SameDevice.symm (h : SameDevice devices s t) : SameDevice devices t s := by
  rcases h with rfl | ⟨hsame, hnone⟩
  · exact .inl rfl
  · exact .inr ⟨hsame.symm, hsame ▸ hnone⟩

/-- A selector under whose own name a device is found is a spelling of one that goes by another. -/
theorem sameDevice_of_own {name : String} (hs : validDeviceSelector s) (ht : validDeviceSelector t)
    (hown : asciiLowercase name = s.toList) (hname : deviceOf devices t = some name) :
    SameDevice devices s t := by
  have heq {u : String} (hu : asciiLowercase name = u.toList) : s = u :=
    String.toList_inj.1 (hown.symm.trans hu)
  rcases deviceOf_eq_some ht hname with h | ⟨-, -, h⟩ | ⟨rfl, hnone, h⟩ | ⟨rfl, hnone, h⟩
  · exact .inl (heq h)
  · rw [heq h] at hs
    exact absurd hs (by decide)
  · rw [heq h]
    exact .inr ⟨by decide, List.forall_mem_singleton.2 hnone⟩
  · rw [heq h]
    exact .inr ⟨by decide, List.forall_mem_singleton.2 hnone⟩

/-- A selector that is no enumerated name goes by its other one. -/
theorem deviceOf_alias {other : String} (hnone : findDevice devices s = none)
    (halias : deviceAlias s = some other) :
    deviceOf devices s = findDevice devices other := by
  rw [deviceOf, hnone, halias, Option.none_or, Option.bind_some]

/-- A selector without another name goes by its own one. -/
theorem deviceOf_own (halias : deviceAlias s = none) : deviceOf devices s = findDevice devices s := by
  rw [deviceOf, halias, Option.bind_none, Option.or_none]

/-- Two selectors name one device exactly if they are spellings of it. -/
theorem deviceOf_eq_iff {name name' : String} (hs : validDeviceSelector s)
    (ht : validDeviceSelector t) (hname : deviceOf devices s = some name)
    (hname' : deviceOf devices t = some name') :
    name = name' ↔ SameDevice devices s t := by
  constructor
  · rintro rfl
    rcases deviceOf_eq_some hs hname with h | ⟨hmetal, hnone, h⟩ | ⟨rfl, hnone, h⟩ | ⟨rfl, hnone, h⟩
    · exact sameDevice_of_own hs ht h hname'
    · rcases deviceOf_eq_some ht hname' with h' | ⟨hmetal', hnone', h'⟩ | ⟨-, -, h'⟩ | ⟨-, -, h'⟩
      · exact (sameDevice_of_own ht hs h' hname).symm
      · rcases hmetal with rfl | rfl <;> rcases hmetal' with rfl | rfl
        · exact .inl rfl
        · exact .inr ⟨by decide, List.forall_mem_cons.2 ⟨hnone, List.forall_mem_singleton.2 hnone'⟩⟩
        · exact .inr ⟨by decide, List.forall_mem_cons.2 ⟨hnone', List.forall_mem_singleton.2 hnone⟩⟩
        · exact .inl rfl
      · exact absurd (h.symm.trans h') (by decide)
      · exact absurd (h.symm.trans h') (by decide)
    · rcases deviceOf_eq_some ht hname' with h' | ⟨-, -, h'⟩ | ⟨rfl, -, -⟩ | ⟨-, -, h'⟩
      · exact (sameDevice_of_own ht hs h' hname).symm
      · exact absurd (h.symm.trans h') (by decide)
      · exact .inl rfl
      · exact absurd (h.symm.trans h') (by decide)
    · rcases deviceOf_eq_some ht hname' with h' | ⟨-, -, h'⟩ | ⟨-, -, h'⟩ | ⟨rfl, -, -⟩
      · exact (sameDevice_of_own ht hs h' hname).symm
      · exact absurd (h.symm.trans h') (by decide)
      · exact absurd (h.symm.trans h') (by decide)
      · exact .inl rfl
  · intro h
    have hmetal : deviceAlias "metal" = some "MTL0" := by decide
    have hmetal0 : deviceAlias "metal0" = some "MTL0" := by decide
    have hsame : deviceOf devices s = deviceOf devices t → name = name' := fun heq =>
      Option.some.inj (hname.symm.trans (heq.trans hname'))
    rcases h with rfl | ⟨hnormal, hnone⟩
    · exact hsame rfl
    · rcases eq_or_ne s t with rfl | hne
      · exact hsame rfl
      · rcases normalizeDevice_eq hnormal hne with (⟨rfl, rfl⟩ | ⟨rfl, rfl⟩) |
          (⟨rfl, rfl⟩ | ⟨rfl, rfl⟩) |
          ⟨rfl, rfl⟩ | ⟨rfl, rfl⟩
        · rw [deviceOf_alias (hnone _ (by decide)) hmetal,
            deviceOf_alias (hnone _ (by decide)) hmetal0] at hsame
          exact hsame rfl
        · rw [deviceOf_alias (hnone _ (by decide)) hmetal,
            deviceOf_alias (hnone _ (by decide)) hmetal0] at hsame
          exact hsame rfl
        · exact hsame
            ((deviceOf_alias (hnone _ (by decide)) (by decide)).trans
              (deviceOf_own (by decide)).symm)
        · exact hsame
            ((deviceOf_own (by decide)).trans
              (deviceOf_alias (hnone _ (by decide)) (by decide)).symm)
        · exact hsame
            ((deviceOf_alias (hnone _ (by decide)) (by decide)).trans
              (deviceOf_own (by decide)).symm)
        · exact hsame
            ((deviceOf_own (by decide)).trans
              (deviceOf_alias (hnone _ (by decide)) (by decide)).symm)

end Gpq
