import Gpq.Lifecycle.Selectors

/-!
# Accepted assignments

Two checks read the device assignments of a Pool: that of the configuration, and that of the
inference child against the enumerated devices. Where every selector names a device, the child
refuses what the configuration accepted exactly if one device gets two budgets of memory
(`accepted_assignments_valid_iff`); otherwise it gives the native library the same assignments in
the names of the devices (`Normalizes`).
-/

namespace Gpq

variable {quote : String → String} {devices : List BackendDevice}

/-! ## What is configured -/

/-- The items of an assignment of modules: a module, if one is named, and its device. -/
def paramsItems (value : String) : List (String × String) :=
  (splitChar ',' value).map fun item => (splitAssignment item).getD ("", item)

/-- The items of an assignment of budgets: a device and its budget. -/
def vramItems (value : String) : List (String × String) :=
  (splitChar ',' value).filterMap splitAssignment

namespace PoolConfig

/-- The modules of a Pool with their devices. -/
def backendItems (pool : PoolConfig) : List (String × String) :=
  match pool.runtime.moduleBackends.entries with
  | [] => [("", pool.backend)]
  | entries => ("all", pool.backend) :: entries.map fun entry => (entry.1, entry.2)

/-- The device selectors that a Pool names. -/
def deviceSelectors (pool : PoolConfig) : List String :=
  pool.backend :: pool.runtime.moduleBackends.entries.map (·.2) ++
    (pool.runtime.paramsBackend.elim [] fun value => (paramsItems value).map (·.2)).filter
      (· ≠ "disk") ++
    pool.runtime.maxVram.elim [] fun value => (vramItems value).map (·.1)

/-- Every selector names an enumerated device. -/
def Resolves (quote : String → String) (pool : PoolConfig) (devices : List BackendDevice) : Prop :=
  ∀ selector ∈ pool.deviceSelectors, ∃ device, resolveDevice quote selector devices = .ok device

/-- What a check of the configuration finds of the device assignments. -/
structure Accepted (pool : PoolConfig) : Prop where
  backend : validDeviceSelector pool.backend
  modules : ∀ entry ∈ pool.runtime.moduleBackends.entries, entry.1 ∈ nativeModules ∧
    validDeviceSelector entry.2
  paramsBackend : ∀ value ∈ pool.runtime.paramsBackend, validParamsBackend value
  maxVram : ∀ value ∈ pool.runtime.maxVram, validVramAssignment value

/-- An accepted Pool has well-formed assignments. -/
theorem accepted_of_validate {host : Host} {pool : PoolConfig} (h : pool.validate host = .ok ()) :
    pool.Accepted := by
  rw [validate] at h
  obtain ⟨-, h⟩ := Traverse.ensure_bind_eq_ok_iff.1 h
  obtain ⟨hbackend, h⟩ := Traverse.ensure_bind_eq_ok_iff.1 h
  obtain ⟨-, h⟩ := Traverse.ensure_bind_eq_ok_iff.1 h
  obtain ⟨-, h⟩ := Traverse.ensure_bind_eq_ok_iff.1 h
  obtain ⟨hparams, h⟩ := Traverse.ensure_bind_eq_ok_iff.1 h
  obtain ⟨hvram, h⟩ := Traverse.ensure_bind_eq_ok_iff.1 h
  obtain ⟨_, -, h⟩ := Traverse.bind_eq_ok_iff.1 h
  obtain ⟨_, hmodules, -⟩ := Traverse.bind_eq_ok_iff.1 h
  refine ⟨hbackend, fun entry hentry => ?_, hparams, hvram⟩
  obtain ⟨hmodule, hdevice⟩ :=
    Traverse.ensure_bind_eq_ok_iff.1 (Traverse.forM_eq_ok_iff.1 hmodules entry hentry)
  exact ⟨hmodule, Traverse.ensure_eq_ok_iff.1 hdevice⟩

end PoolConfig

/-! ## What the native library is given -/

/-- The text of an item. -/
def itemText (item : String × String) : String :=
  if item.1 = "" then item.2 else item.1 ++ "=" ++ item.2

/-- The text of an assignment. -/
def assignmentText (items : List (String × String)) : String := ",".intercalate (items.map itemText)

/-- An item is given with the enumerated device that its selector names. -/
def Given (quote : String → String) (devices : List BackendDevice)
    (configured given : String × String) : Prop :=
  given.1 = configured.1 ∧ resolveDevice quote configured.2 devices = .ok given.2 ∧
    given.2 ∈ devices.map BackendDevice.name

/-- The assignments are those of the Pool, in the names of enumerated devices. -/
structure Normalizes (quote : String → String) (pool : PoolConfig) (devices : List BackendDevice)
    (given : RuntimeDeviceAssignments) : Prop where
  backend : ∃ items, List.Forall₂ (Given quote devices) pool.backendItems items ∧
    given.backend = assignmentText items
  paramsBackend : Option.Rel (fun value text => ∃ items,
      List.Forall₂ (fun configured given => Given quote devices configured given ∨
        configured.2 = "disk" ∧ given = configured) (paramsItems value) items ∧
          text = assignmentText items)
    pool.runtime.paramsBackend given.paramsBackend
  maxVram : Option.Rel (fun value text =>
      isPositiveU32 value ∧ text = value ∨
      ∃ items, List.Forall₂ (fun configured given : String × String => given.2 = configured.2 ∧
          resolveDevice quote configured.1 devices = .ok given.1 ∧
            given.1 ∈ devices.map BackendDevice.name)
        (vramItems value) items ∧
          text = ",".intercalate (items.map fun item => item.1 ++ "=" ++ item.2))
    pool.runtime.maxVram given.maxVram

/-- No device is given two budgets of memory. -/
def BudgetsOnce (pool : PoolConfig) (devices : List BackendDevice) : Prop :=
  ∀ value ∈ pool.runtime.maxVram, (vramItems value).Pairwise fun item item' =>
    ¬ SameDevice devices item.1 item'.1

/-! ## Resolved selectors -/

/-- The enumerated name of the device that a selector names. -/
def resolvedName (devices : List BackendDevice)
    (selector : String) : String := (deviceOf devices selector).getD ""

/-- A selector that is resolved stands for the device of this name. -/
theorem resolveDevice_resolvedName {s : String} (hs : validDeviceSelector s)
    (h : ∃ device, resolveDevice quote s devices = .ok device) :
    resolveDevice quote s devices = .ok (resolvedName devices s) ∧
      deviceOf devices s = some (resolvedName devices s) := by
  obtain ⟨device, hdevice⟩ := h
  have hsome := (resolveDevice_eq_ok_iff hs).1 hdevice
  rw [resolvedName, hsome, Option.getD_some]
  exact ⟨hdevice, rfl⟩

/-- A selector names an enumerated device. -/
theorem mem_of_deviceOf {s name : String} (h : deviceOf devices s = some name) :
    name ∈ devices.map BackendDevice.name := by
  rw [deviceOf, Option.or_eq_some_iff] at h
  rcases h with hfind | ⟨-, halias⟩
  · exact (findDevice_eq_some hfind).1
  · obtain ⟨other, -, hfind⟩ := Option.bind_eq_some_iff.1 halias
    exact (findDevice_eq_some hfind).1

/-- Two selectors are resolved to the same name exactly if they are spellings of one device. -/
theorem resolvedName_eq_iff {s t : String} (hs : validDeviceSelector s) (ht : validDeviceSelector t)
    (hs' : ∃ device, resolveDevice quote s devices = .ok device)
    (ht' : ∃ device, resolveDevice quote t devices = .ok device) :
    resolvedName devices s = resolvedName devices t ↔ SameDevice devices s t :=
  deviceOf_eq_iff hs ht (resolveDevice_resolvedName hs hs').2 (resolveDevice_resolvedName ht ht').2

/-- The item with the device that its selector names. -/
def giveItem (devices : List BackendDevice) (item : String × String) : String × String :=
  (item.1, resolvedName devices item.2)

/-- An item that is resolved names a device of the machine. -/
theorem given_giveItem {item : String × String} (hs : validDeviceSelector item.2)
    (h : ∃ device, resolveDevice quote item.2 devices = .ok device) :
    Given quote devices item (giveItem devices item) :=
  ⟨rfl, (resolveDevice_resolvedName hs h).1, mem_of_deviceOf (resolveDevice_resolvedName hs h).2⟩

/-! ## The devices of the modules -/

/-- An assignment text goes on with a comma. -/
theorem assignmentText_concat {items : List (String × String)} (hne : items ≠ [])
    (item : String × String) :
    assignmentText (items ++ [item]) = assignmentText items ++ "," ++ itemText item := by
  have hne' : items.map itemText ≠ [] := fun h => hne (List.map_eq_nil_iff.1 h)
  rw [assignmentText, List.map_append, List.map_singleton,
    String.intercalate_append_of_ne_nil hne' (List.cons_ne_nil _ _), String.intercalate_singleton]
  rfl

/-- The modules are appended with their devices. -/
theorem foldlM_assignModule {entries : List (Σ _ : String, String)} {items : List (String × String)}
    (hentries : ∀ entry ∈ entries, entry.1 ∈ nativeModules ∧ validDeviceSelector entry.2 ∧
      ∃ device, resolveDevice quote entry.2 devices = .ok device) (hne : items ≠ []) :
    entries.foldlM (assignModule quote devices) (assignmentText items) =
      .ok (assignmentText
        (items ++ entries.map fun entry => giveItem devices (entry.1, entry.2))) := by
  induction entries generalizing items with
  | nil =>
    rw [List.map_nil, List.append_nil]
    rfl
  | cons entry entries ih =>
    obtain ⟨hmodule, hvalid, hresolves⟩ := hentries entry List.mem_cons_self
    have hempty : entry.1 ≠ "" := fun hempty => absurd (hempty ▸ hmodule) (by decide)
    have htext : itemText (giveItem devices (entry.1, entry.2)) =
        entry.1 ++ "=" ++ resolvedName devices entry.2 := if_neg hempty
    have hassign : assignModule quote devices (assignmentText items) entry =
        .ok (assignmentText (items ++ [giveItem devices (entry.1, entry.2)])) := by
      rw [assignModule, validateModuleBackend, if_pos hmodule]
      refine Traverse.bind_eq_ok_iff.2 ⟨(), rfl, ?_⟩
      refine Traverse.bind_eq_ok_iff.2 ⟨_, (resolveDevice_resolvedName hvalid hresolves).1, ?_⟩
      rw [assignmentText_concat hne, htext, ← String.append_assoc, ← String.append_assoc]
      rfl
    have hrest := ih (fun e he => hentries e (List.mem_cons_of_mem _ he))
      (List.append_ne_nil_of_left_ne_nil hne [giveItem devices (entry.1, entry.2)])
    rw [List.foldlM_cons]
    refine Traverse.bind_eq_ok_iff.2 ⟨_, hassign, ?_⟩
    rw [hrest, List.map_cons, List.append_assoc, List.singleton_append]

variable {pool : PoolConfig}

/-- The devices of the modules are given. -/
theorem backendAssignment_ok (haccepted : pool.Accepted) (hresolves : pool.Resolves quote devices) :
    ∃ text, backendAssignment quote pool.backend pool.runtime.moduleBackends devices = .ok text ∧
      ∃ items, List.Forall₂ (Given quote devices) pool.backendItems items ∧
        text = assignmentText items := by
  have hdefault :=
    hresolves pool.backend (List.mem_append_left _ (List.mem_append_left _ List.mem_cons_self))
  have hentries : ∀ entry ∈ pool.runtime.moduleBackends.entries,
      ∃ device, resolveDevice quote entry.2 devices = .ok device := fun entry hentry =>
    hresolves entry.2 (List.mem_append_left _ (List.mem_append_left _
      (List.mem_cons_of_mem _ (List.mem_map_of_mem hentry))))
  have hgiven : List.Forall₂ (Given quote devices) pool.backendItems
      (pool.backendItems.map (giveItem devices)) := by
    rw [List.forall₂_map_right_iff, List.forall₂_same]
    intro item hitem
    rw [PoolConfig.backendItems] at hitem
    split at hitem
    · rw [List.mem_singleton] at hitem
      subst hitem
      exact given_giveItem haccepted.backend hdefault
    · rcases List.mem_cons.1 hitem with rfl | hitem
      · exact given_giveItem haccepted.backend hdefault
      · obtain ⟨entry, hentry, rfl⟩ := List.mem_map.1 hitem
        exact given_giveItem (haccepted.modules entry hentry).2 (hentries entry hentry)
  refine ⟨_, ?_, _, hgiven, rfl⟩
  rw [backendAssignment]
  refine Traverse.bind_eq_ok_iff.2 ⟨_, (resolveDevice_resolvedName haccepted.backend hdefault).1, ?_⟩
  rcases hlist : pool.runtime.moduleBackends.entries with _ | ⟨entry, entries⟩
  · rw [PoolConfig.backendItems, hlist]
    rfl
  · have hall : assignmentText [("all", resolvedName devices pool.backend)] =
        "all=" ++ resolvedName devices pool.backend := String.intercalate_singleton
    have hassign : pool.runtime.moduleBackends.entries.foldlM (assignModule quote devices)
        (assignmentText [("all", resolvedName devices pool.backend)]) = _ :=
      foldlM_assignModule
        (fun e he => ⟨(haccepted.modules e he).1, (haccepted.modules e he).2, hentries e he⟩)
        (List.cons_ne_nil _ _)
    rw [hall, hlist] at hassign
    rw [PoolConfig.backendItems, hlist]
    refine hassign.trans (congrArg (fun items => Except.ok (assignmentText items)) ?_)
    have hmap : ((entry :: entries).map fun e => (e.1, e.2)).map (giveItem devices) =
        (entry :: entries).map fun e => giveItem devices (e.1, e.2) := List.map_map
    rw [List.singleton_append, ← hmap]
    rfl

/-! ## The devices of the parameters -/

/-- An item of parameters is given with its device. -/
theorem normalizeParams_ok {item : String}
    (hmodule : ((splitAssignment item).getD ("", item)).1 = "" ∨
      ((splitAssignment item).getD ("", item)).1 ∈ paramsModules)
    (hdevice : validDeviceSelector ((splitAssignment item).getD ("", item)).2)
    (hresolves : ∃ device, resolveDevice quote ((splitAssignment item).getD ("", item)).2 devices =
      .ok device) :
    normalizeParams quote devices item =
      .ok (itemText (giveItem devices ((splitAssignment item).getD ("", item)))) := by
  rw [normalizeParams]
  generalize (splitAssignment item).getD ("", item) = parts at *
  obtain ⟨module, device⟩ := parts
  have hdisk : device ≠ "disk" := by
    rintro rfl
    have hinvalid : validDeviceSelector "disk" = true := hdevice
    exact absurd hinvalid (by decide)
  dsimp only
  rw [Traverse.ensure_bind_eq_ok_iff]
  refine ⟨hmodule, ?_⟩
  rw [if_neg hdisk]
  exact Traverse.bind_eq_ok_iff.2 ⟨_, (resolveDevice_resolvedName hdevice hresolves).1, rfl⟩

/-- Letters and digits are no white space. -/
theorem not_isWhiteSpace_of_isAlphanum {c : Char} (h : c.isAlphanum) : ¬ isWhiteSpace c := by
  have hrange : (65 ≤ c.toNat ∧ c.toNat ≤ 90) ∨ (97 ≤ c.toNat ∧ c.toNat ≤ 122) ∨ 48 ≤ c.toNat ∧
      c.toNat ≤ 57 := by
    delta Char.isAlphanum Char.isAlpha Char.isUpper Char.isLower Char.isDigit at h
    simp only [Bool.or_eq_true,
      Bool.and_eq_true, decide_eq_true_eq, ge_iff_le, UInt32.le_iff_toNat_le] at h
    exact or_assoc.1 h
  simp only [isWhiteSpace, decide_eq_true_eq, List.mem_cons, List.not_mem_nil, or_false]
  omega

/-- A text with a letter or a digit is not trimmed away. -/
theorem trim_ne_empty {s : String} {c : Char} (hc : c ∈ s.toList) (halphanum : c.isAlphanum) :
    trim s ≠ "" := by
  intro hempty
  have hspace := not_isWhiteSpace_of_isAlphanum halphanum
  rw [trim, String.ofList_eq_empty_iff, List.rdropWhile_eq_nil_iff] at hempty
  rw [← List.takeWhile_append_dropWhile (p := isWhiteSpace) (l := s.toList), List.mem_append] at hc
  rcases hc with hc | hc
  · exact hspace (List.mem_takeWhile_imp hc)
  · exact hspace (hempty c hc)

/-- A selector begins with a letter. -/
theorem exists_alphanum_of_valid {s : String} (h : validDeviceSelector s) :
    ∃ c ∈ s.toList, c.isAlphanum := by
  rcases hs : s.toList with _ | ⟨c, text⟩
  · rw [String.toList_eq_nil_iff.1 hs] at h
    exact absurd h (by decide)
  · have hc : c ∈ s.toList := hs ▸ List.mem_cons_self
    exact ⟨c, List.mem_cons_self, alphanum_of_valid h c hc⟩

/-- The parts of an item are of the item. -/
theorem splitAssignment_eq_some {item device amount : String}
    (h : splitAssignment item = some (device, amount)) :
    item = device ++ "=" ++ amount := by
  obtain ⟨⟨before, after⟩, hsplit, heq⟩ := Option.map_eq_some_iff.1 h
  cases heq
  refine String.toList_inj.1 ?_
  rw [splitOnce_eq_some hsplit, String.toList_append, String.toList_append, String.toList_ofList,
    String.toList_ofList, String.toList_ofList, List.append_assoc]
  rfl

/-- What assigns devices is not blank. -/
theorem trim_ne_of_params {value : String} (hitems : ∀ item ∈ splitChar ',' value,
    validDeviceSelector ((splitAssignment item).getD ("", item)).2) : trim value ≠ "" := by
  obtain ⟨item, rest, hparts⟩ := List.exists_cons_of_ne_nil (splitChar_ne_nil ',' value)
  have hitem : item ∈ splitChar ',' value := hparts ▸ List.mem_cons_self
  obtain ⟨c, hc, halphanum⟩ := exists_alphanum_of_valid (hitems item hitem)
  refine trim_ne_empty (mem_of_mem_splitChar hitem ?_) halphanum
  rcases hsplit : splitAssignment item with _ | ⟨module, device⟩
  · rwa [hsplit] at hc
  · rw [hsplit] at hc
    rw [splitAssignment_eq_some hsplit, String.toList_append]
    exact List.mem_append_right _ hc

/-- The devices of the parameters are given. -/
theorem validateParamsBackend_ok {value : String} (hvalid : validParamsBackend value)
    (hresolves : ∀ item ∈ paramsItems value, item.2 ≠ "disk" →
      ∃ device, resolveDevice quote item.2 devices = .ok device) :
    ∃ text, validateParamsBackend quote value devices = .ok text ∧ ∃ items,
      List.Forall₂ (fun configured given => Given quote devices configured given ∨
        configured.2 = "disk" ∧ given = configured) (paramsItems value) items ∧
        text = assignmentText items := by
  rw [validParamsBackend, Bool.or_eq_true, Bool.and_eq_true, decide_eq_true_iff,
    List.all_eq_true] at hvalid
  rcases hvalid with rfl | ⟨-, hitems⟩
  · have hdisk : normalizeParams quote devices "disk" = .ok "disk" := rfl
    have hparts : splitChar ',' "disk" = ["disk"] := by decide
    refine ⟨"disk", ?_, [("", "disk")], ?_, rfl⟩
    · rw [validateParamsBackend, Traverse.ensure_bind_eq_ok_iff, hparts]
      exact ⟨by decide, rfl⟩
    · rw [paramsItems, hparts]
      exact .cons (.inr ⟨rfl, rfl⟩) .nil
  · have hitem : ∀ item ∈ splitChar ',' value,
        normalizeParams quote devices item =
          .ok (itemText (giveItem devices ((splitAssignment item).getD ("", item)))) ∧
        Given quote devices ((splitAssignment item).getD ("", item))
          (giveItem devices ((splitAssignment item).getD ("", item))) := by
      intro item hitem
      have hparts := hitems item hitem
      rw [Bool.and_eq_true, Bool.or_eq_true, decide_eq_true_iff, decide_eq_true_iff] at hparts
      have hmem : (splitAssignment item).getD ("", item) ∈ paramsItems value :=
        List.mem_map_of_mem hitem
      have hdisk : ((splitAssignment item).getD ("", item)).2 ≠ "disk" := by
        intro hdisk
        rw [hdisk] at hparts
        exact absurd hparts.2 (by decide)
      exact ⟨normalizeParams_ok hparts.1 hparts.2 (hresolves _ hmem hdisk),
        given_giveItem hparts.2 (hresolves _ hmem hdisk)⟩
    refine ⟨assignmentText ((paramsItems value).map (giveItem devices)), ?_, _, ?_, rfl⟩
    · rw [validateParamsBackend, Traverse.ensure_bind_eq_ok_iff]
      refine ⟨trim_ne_of_params fun item h => (Bool.and_eq_true_iff.1 (hitems item h)).2,
        Traverse.bind_eq_ok_iff.2 ⟨_, Traverse.mapM_eq_ok_iff.2 ?_, rfl⟩⟩
      rw [paramsItems, List.map_map, List.map_map, List.forall₂_map_right_iff, List.forall₂_same]
      exact fun item h => (hitem item h).1
    · rw [paramsItems, List.map_map, List.forall₂_map_left_iff, List.forall₂_map_right_iff,
        List.forall₂_same]
      exact fun item h => .inl (hitem item h).2

/-! ## The budgets of the devices -/

/-- Digits of a number of 32 bits write a finite float. -/
theorem isFiniteNumber_digits {digits : List Char} (hne : digits ≠ [])
    (hdigits : ∀ c ∈ digits, c.isDigit)
    (hlt : Nat.ofDigitChars 10 digits 0 < 2 ^ 32) : isFiniteNumber digits = some true := by
  have hspan : digits.span Char.isDigit = (digits, []) := by
    rw [List.span_eq_takeWhile_dropWhile, List.takeWhile_eq_self_iff.2 hdigits,
      List.dropWhile_eq_nil_iff.2 hdigits]
  have hfinite : Nat.ofDigitChars 10 digits 0 < 2 ^ 128 - 2 ^ 103 := hlt.trans (by decide)
  rw [isFiniteNumber, hspan]
  dsimp only
  rw [if_neg fun h => hne h.1, List.append_nil]
  refine congrArg some (decide_eq_true ?_)
  simpa using hfinite

/-- Digits are no other float. -/
theorem digits_map_toLower_not_mem {digits : List Char} (hdigits : ∀ c ∈ digits, c.isDigit) :
    digits.map Char.toLower ∉ ["inf".toList, "infinity".toList, "nan".toList] := by
  intro hmem
  have hletter : ∀ text ∈ ["inf".toList, "infinity".toList, "nan".toList], 'n' ∈ text := by decide
  obtain ⟨c, hc, hlower⟩ := List.mem_map.1 (hletter _ hmem)
  rw [toLower_digit (hdigits c hc)] at hlower
  exact absurd (hlower ▸ hdigits c hc) (by decide)

/-- A number of 32 bits is a finite float. -/
theorem parseFiniteF32_of_isPositiveU32 {amount : String} (h : isPositiveU32 amount) :
    parseFiniteF32 amount.toList = some true := by
  rw [isPositiveU32] at h
  split at h
  · rename_i hparse
    obtain ⟨digits, hne, htext, hdigits, hlt⟩ := parseUnsigned_eq_ok hparse
    have hnumber :
        (if digits.map Char.toLower ∈ ["inf".toList, "infinity".toList, "nan".toList] then some false
        else isFiniteNumber digits) = some true :=
      (if_neg (digits_map_toLower_not_mem hdigits)).trans (isFiniteNumber_digits hne hdigits hlt)
    rcases htext with htext | htext
    · rw [htext, parseFiniteF32]
      · exact hnumber
      · rintro _ rfl
        exact absurd (hdigits '-' List.mem_cons_self) (by decide)
      · rintro _ rfl
        exact absurd (hdigits '+' List.mem_cons_self) (by decide)
    · rw [htext]
      exact hnumber
  · cases h

/-- The budgets of a list of items are given where no device has two. -/
theorem normalizeVram_eq_ok_iff {items selected texts : List String}
    (hitems : ∀ item ∈ items, ∃ device amount, splitAssignment item = some (device, amount) ∧
      resolveDevice quote device devices = .ok (resolvedName devices device) ∧ isPositiveU32 amount) :
    normalizeVram quote devices items selected = .ok texts ↔
      ((items.filterMap splitAssignment).map fun item => resolvedName devices item.1).Nodup ∧
      (∀ item ∈ items.filterMap splitAssignment, resolvedName devices item.1 ∉ selected) ∧
      texts = (items.filterMap splitAssignment).map fun item => resolvedName devices item.1 ++
        "=" ++ item.2 := by
  induction items generalizing selected texts with
  | nil =>
    rw [normalizeVram]
    exact ⟨fun h => ⟨List.nodup_nil, nofun, (Except.ok.inj h).symm⟩,
      fun h => congrArg Except.ok h.2.2.symm⟩
  | cons item items ih =>
    obtain ⟨device, amount, hsplit, hdevice, hamount⟩ := hitems item List.mem_cons_self
    have hfinite := parseFiniteF32_of_isPositiveU32 hamount
    have hstep : normalizeVram quote devices (item :: items) selected = (do
        Traverse.ensure (resolvedName devices device ∉ selected)
          (.invalidRequest "max_vram cannot assign a device more than once")
        let normalized ← normalizeVram quote devices items (resolvedName devices device :: selected)
        return (resolvedName devices device ++ "=" ++ amount) :: normalized) := by
      rw [normalizeVram, hsplit, Option.elim_some]
      change (resolveDevice quote device devices >>= _) = _
      rw [hdevice, hfinite]
      rfl
    rw [hstep, Traverse.ensure_bind_eq_ok_iff, Traverse.bind_eq_ok_iff,
      List.filterMap_cons_some hsplit, List.map_cons,
      List.map_cons, List.nodup_cons, List.forall_mem_cons]
    have hnotin (h : ∀ item ∈ items.filterMap splitAssignment,
        resolvedName devices item.1 ∉ resolvedName devices device :: selected) :
        resolvedName devices device ∉
          (items.filterMap splitAssignment).map fun item => resolvedName devices item.1 := by
      intro hmem
      obtain ⟨item', hitem', heq⟩ := List.mem_map.1 hmem
      exact h item' hitem' (heq ▸ List.mem_cons_self)
    constructor
    · rintro ⟨hselected, normalized, hrest, htexts⟩
      obtain ⟨hnodup, hdisjoint, rfl⟩ := (ih fun i hi => hitems i (List.mem_cons_of_mem _ hi)).1 hrest
      exact ⟨⟨hnotin hdisjoint, hnodup⟩,
        ⟨hselected, fun i hi hmem => hdisjoint i hi (List.mem_cons_of_mem _ hmem)⟩,
          (Except.ok.inj htexts).symm⟩
    · rintro ⟨⟨hfirst, hnodup⟩, ⟨hselected, hdisjoint⟩, rfl⟩
      refine ⟨hselected, _,
        (ih fun i hi => hitems i (List.mem_cons_of_mem _ hi)).2 ⟨hnodup, ?_, rfl⟩, rfl⟩
      intro i hi hmem
      rcases List.mem_cons.1 hmem with heq | hmem
      · exact hfirst (heq ▸ List.mem_map_of_mem hi)
      · exact hdisjoint i hi hmem

/-- A positive number is written with a digit, and without an equals sign. -/
theorem chars_of_isPositiveU32 {value : String} (h : isPositiveU32 value) :
    (∃ c ∈ value.toList, c.isAlphanum) ∧ '=' ∉ value.toList := by
  rw [isPositiveU32] at h
  split at h
  · rename_i hparse
    obtain ⟨digits, hne, htext, hdigits, -⟩ := parseUnsigned_eq_ok hparse
    obtain ⟨c, rest, rfl⟩ := List.exists_cons_of_ne_nil hne
    have halphanum : c.isAlphanum := by
      rw [Char.isAlphanum, hdigits c List.mem_cons_self, Bool.or_true]
    constructor
    · refine ⟨c, ?_, halphanum⟩
      rcases htext with htext | htext <;> rw [htext]
      · exact List.mem_cons_self
      · exact List.mem_cons_of_mem _ List.mem_cons_self
    · intro hmem
      rcases htext with htext | htext <;> rw [htext] at hmem
      · exact absurd (hdigits _ hmem) (by decide)
      · rcases List.mem_cons.1 hmem with hmem | hmem
        · exact absurd hmem (by decide)
        · exact absurd (hdigits _ hmem) (by decide)
  · cases h

/-- An accepted budget is a number, or the items are devices with numbers. -/
theorem validateMaxVram_cases {value : String} (hvalid : validVramAssignment value) :
    isPositiveU32 value ∧ vramItems value = [] ∧ validateMaxVram quote value devices = .ok value ∨
    (∀ item ∈ splitChar ',' value, ∃ device amount, splitAssignment item = some (device, amount) ∧
      validDeviceSelector device ∧ isPositiveU32 amount) ∧
    validateMaxVram quote value devices =
      (normalizeVram quote devices (splitChar ',' value) []).map (",".intercalate ·) := by
  rw [validVramAssignment, Bool.or_eq_true, Bool.and_eq_true, decide_eq_true_iff,
    List.all_eq_true] at hvalid
  rcases hvalid with hpositive | ⟨htrim, hitems⟩
  · obtain ⟨⟨c, hc, halphanum⟩, hequals⟩ := chars_of_isPositiveU32 hpositive
    refine .inl ⟨hpositive, List.filterMap_eq_nil_iff.2 fun item hitem => ?_, ?_⟩
    · rcases hsplit : splitAssignment item with _ | ⟨device, amount⟩
      · rfl
      · refine absurd (mem_of_mem_splitChar hitem ?_) hequals
        rw [splitAssignment_eq_some hsplit, String.toList_append, String.toList_append]
        exact List.mem_append_left _ (List.mem_append_right _ List.mem_cons_self)
    · rw [validateMaxVram, Traverse.ensure_bind_eq_ok_iff, if_pos hequals, if_pos hpositive]
      exact ⟨trim_ne_empty hc halphanum, rfl⟩
  · have hparts : ∀ item ∈ splitChar ',' value,
        ∃ device amount, splitAssignment item = some (device, amount) ∧
        validDeviceSelector device ∧ isPositiveU32 amount := by
      intro item hitem
      have hpart := hitems item hitem
      rcases hsplit : splitAssignment item with _ | ⟨device, amount⟩
      · rw [hsplit] at hpart
        cases hpart
      · rw [hsplit] at hpart
        exact ⟨device, amount, rfl, Bool.and_eq_true_iff.1 hpart⟩
    obtain ⟨item, rest, hlist⟩ := List.exists_cons_of_ne_nil (splitChar_ne_nil ',' value)
    have hitem : item ∈ splitChar ',' value := hlist ▸ List.mem_cons_self
    obtain ⟨device, amount, hsplit, -, -⟩ := hparts item hitem
    have hequals : '=' ∈ value.toList := by
      refine mem_of_mem_splitChar hitem ?_
      rw [splitAssignment_eq_some hsplit, String.toList_append, String.toList_append]
      exact List.mem_append_left _ (List.mem_append_right _ List.mem_cons_self)
    refine .inr ⟨hparts, ?_⟩
    rw [validateMaxVram, Traverse.ensure, if_pos htrim, if_neg (not_not_intro hequals)]
    rfl

/-- The budgets are given exactly if no device has two, and then they are those of the devices. -/
theorem validateMaxVram_iff {value : String} (hvalid : validVramAssignment value)
    (hresolves : ∀ item ∈ vramItems value, ∃ device, resolveDevice quote item.1 devices =
      .ok device) :
    (∃ text, validateMaxVram quote value devices = .ok text ∧ (isPositiveU32 value ∧ text = value ∨
      ∃ items, List.Forall₂ (fun configured given : String × String => given.2 = configured.2 ∧
          resolveDevice quote configured.1 devices = .ok given.1 ∧
          given.1 ∈ devices.map BackendDevice.name)
        (vramItems value) items ∧
          text = ",".intercalate (items.map fun item => item.1 ++ "=" ++ item.2))) ↔
      (vramItems value).Pairwise fun item item' => ¬ SameDevice devices item.1 item'.1 := by
  rcases @validateMaxVram_cases quote devices value hvalid with ⟨hpositive, hnil, hok⟩ | ⟨hparts, hok⟩
  · rw [hnil]
    exact ⟨fun _ => List.Pairwise.nil, fun _ => ⟨value, hok, .inl ⟨hpositive, rfl⟩⟩⟩
  · have hitem : ∀ item ∈ vramItems value, validDeviceSelector item.1 := by
      intro item hitem
      obtain ⟨part, hpart, hsplit⟩ := List.mem_filterMap.1 hitem
      obtain ⟨device, amount, hsplit', hvalid', -⟩ := hparts part hpart
      rw [hsplit] at hsplit'
      cases hsplit'
      exact hvalid'
    have hnames : ((vramItems value).map fun item => resolvedName devices item.1).Nodup ↔
        (vramItems value).Pairwise fun item item' => ¬ SameDevice devices item.1 item'.1 := by
      rw [List.Nodup, List.pairwise_map]
      refine ⟨fun h => h.imp_of_mem fun ha hb hne => ?_, fun h => h.imp_of_mem fun ha hb hne => ?_⟩
      · exact (resolvedName_eq_iff (hitem _ ha) (hitem _ hb) (hresolves _ ha)
          (hresolves _ hb)).not.1 hne
      · exact (resolvedName_eq_iff (hitem _ ha) (hitem _ hb) (hresolves _ ha)
          (hresolves _ hb)).not.2 hne
    have hnormal {texts : List String} :=
      @normalizeVram_eq_ok_iff quote devices (splitChar ',' value) [] texts
      fun part hpart => by
        obtain ⟨device, amount, hsplit, hvalid', hamount⟩ := hparts part hpart
        have hmem : (device, amount) ∈ vramItems value := List.mem_filterMap.2 ⟨part, hpart, hsplit⟩
        exact ⟨device, amount, hsplit, (resolveDevice_resolvedName hvalid' (hresolves _ hmem)).1,
          hamount⟩
    rw [← hnames, hok]
    constructor
    · rintro ⟨text, htext, -⟩
      rcases hrun : normalizeVram quote devices (splitChar ',' value) [] with err | texts
      · rw [hrun] at htext
        cases htext
      · exact (hnormal.1 hrun).1
    · intro hnodup
      have hrun := hnormal.2 ⟨hnodup, fun _ _ => List.not_mem_nil, rfl⟩
      rw [hrun]
      refine ⟨_, rfl,
        .inr ⟨(vramItems value).map fun item => (resolvedName devices item.1, item.2), ?_, ?_⟩⟩
      · rw [List.forall₂_map_right_iff, List.forall₂_same]
        intro item hmem
        obtain ⟨hresolve, hdevice⟩ :=
          resolveDevice_resolvedName (hitem item hmem) (hresolves item hmem)
        exact ⟨rfl, hresolve, mem_of_deviceOf hdevice⟩
      · rw [List.map_map]
        rfl

/-! ## Accepted Pools -/

/-- The assignment of parameters, if there is one, is given. -/
theorem paramsBackend_given (hpool : pool.Accepted) (hresolves : pool.Resolves quote devices) :
    ∃ given, pool.runtime.paramsBackend.mapM (validateParamsBackend quote · devices) = .ok given ∧
      Option.Rel (fun value text => ∃ items,
        List.Forall₂ (fun configured given => Given quote devices configured given ∨
          configured.2 = "disk" ∧ given = configured) (paramsItems value) items ∧
          text = assignmentText items)
        pool.runtime.paramsBackend given := by
  rcases hvalue : pool.runtime.paramsBackend with _ | value
  · exact ⟨none, rfl, .none⟩
  · obtain ⟨text, htext, hitems⟩ :=
      validateParamsBackend_ok (hpool.paramsBackend value hvalue) fun item hitem hdisk =>
      hresolves item.2 (List.mem_append_left _ (List.mem_append_right _ (by
        rw [hvalue]
        exact List.mem_filter.2 ⟨List.mem_map_of_mem hitem, decide_eq_true hdisk⟩)))
    refine ⟨some text, ?_, .some hitems⟩
    rw [Option.mapM_some, htext]
    rfl

/-- The budgets, if there are any, are given exactly if no device has two. -/
theorem maxVram_given_iff (hpool : pool.Accepted) (hresolves : pool.Resolves quote devices) :
    (∃ given, pool.runtime.maxVram.mapM (validateMaxVram quote · devices) = .ok given ∧
      Option.Rel (fun value text => isPositiveU32 value ∧ text = value ∨
        ∃ items, List.Forall₂ (fun configured given : String × String => given.2 = configured.2 ∧
            resolveDevice quote configured.1 devices = .ok given.1 ∧
            given.1 ∈ devices.map BackendDevice.name)
          (vramItems value) items ∧
          text = ",".intercalate (items.map fun item => item.1 ++ "=" ++ item.2))
        pool.runtime.maxVram given) ↔ BudgetsOnce pool devices := by
  rcases hvalue : pool.runtime.maxVram with _ | value
  · refine ⟨fun _ value hvalue' => ?_, fun _ => ⟨none, rfl, .none⟩⟩
    rw [hvalue] at hvalue'
    cases hvalue'
  · have honce : BudgetsOnce pool devices ↔
        (vramItems value).Pairwise fun item item' => ¬ SameDevice devices item.1 item'.1 := by
      rw [BudgetsOnce, hvalue]
      exact ⟨fun h => h value rfl, fun h _ hvalue' => Option.some.inj hvalue' ▸ h⟩
    have hvram := validateMaxVram_iff (hpool.maxVram value hvalue) fun item hitem =>
      hresolves item.1 (List.mem_append_right _ (by
        rw [hvalue]
        exact List.mem_map_of_mem hitem))
    rw [honce, ← hvram, Option.mapM_some]
    constructor
    · rintro ⟨_, hmap, hrel⟩
      obtain ⟨text, htext, heq⟩ := Traverse.bind_eq_ok_iff.1 hmap
      cases heq
      cases hrel with
      | some hgiven => exact ⟨text, htext, hgiven⟩
    · rintro ⟨text, htext, hgiven⟩
      refine ⟨some text, ?_, .some hgiven⟩
      rw [htext]
      rfl

/-- Where every selector of an accepted Pool names an enumerated device, the inference child accepts
    the assignments, and gives the native library those of the Pool in the names of the devices,
    exactly if no device is given two budgets of memory. -/
theorem accepted_assignments_valid_iff (quote : String → String) (host : Host) (pool : PoolConfig)
    (devices : List BackendDevice) (haccepted : pool.validate host = .ok ())
    (hresolves : pool.Resolves quote devices) :
    (validateDeviceAssignments quote pool.backend pool.runtime.moduleBackends
      pool.runtime.paramsBackend
        pool.runtime.maxVram devices = .ok () ∧
      ∃ given, resolveRuntimeDeviceAssignments quote pool.backend pool.runtime.moduleBackends
          pool.runtime.paramsBackend pool.runtime.maxVram devices = .ok given ∧
        Normalizes quote pool devices given) ↔ BudgetsOnce pool devices := by
  have hpool := PoolConfig.accepted_of_validate haccepted
  obtain ⟨backend, hbackend, hmodules⟩ := backendAssignment_ok hpool hresolves
  obtain ⟨paramsBackend, hparams, hparams'⟩ := paramsBackend_given hpool hresolves
  have hresult : resolveRuntimeDeviceAssignments quote pool.backend pool.runtime.moduleBackends
      pool.runtime.paramsBackend pool.runtime.maxVram devices =
      pool.runtime.maxVram.mapM (validateMaxVram quote · devices) >>= fun maxVram =>
        .ok ⟨backend, paramsBackend, maxVram⟩ := by
    rw [resolveRuntimeDeviceAssignments, hbackend]
    change (pool.runtime.paramsBackend.mapM (validateParamsBackend quote · devices) >>= _) = _
    rw [hparams]
    rfl
  rw [validateDeviceAssignments, hresult, ← maxVram_given_iff hpool hresolves]
  constructor
  · rintro ⟨-, given, hgiven, hnormal⟩
    obtain ⟨maxVram, hvram, heq⟩ := Traverse.bind_eq_ok_iff.1 hgiven
    cases heq
    exact ⟨maxVram, hvram, hnormal.maxVram⟩
  · rintro ⟨maxVram, hvram, hgiven⟩
    rw [hvram]
    exact ⟨rfl, _, rfl, hmodules, hparams', hgiven⟩

/-- A host with nothing but directories, that reads addresses as numbers behind a colon. -/
def localHost : Host where
  isFile _ := none
  createDirAll _ := true
  setPermissions _ := true
  parseSocketAddr text := (splitOnce ':' text.toList).bind fun (ip, port) =>
    match parseUnsigned 16 port with
    | .ok port => some ⟨String.ofList ip, UInt16.ofNat port⟩
    | .error _ => none
  digest _ := 0

/-- A Pool of one device, without models. -/
def localPool (key backend listen : String) : PoolConfig where
  key
  backend
  listen
  stateDir := "/var/lib/gpq"
  startupTimeout := 10
  runtime := {
    paramsBackend := none
    maxVram := none
    threads := 8
    modelArgs := []
    moduleBackends := ∅ }
  shape := { imagePixels := 16777216, videoPixels := 64000000, videoFrames := 97, steps := 100 }
  models := []
  extraImageLoras := []
  expectedHashes := ∅
  env := ∅

/-- A Pool with budgets of memory. -/
def budgetPool (maxVram : String) : PoolConfig :=
  let pool := localPool "main" "vulkan0" "127.0.0.1:4001"
  { pool with runtime := { pool.runtime with maxVram := some maxVram } }

/-- A machine with two cards. -/
def vulkanDevices : List BackendDevice := [⟨"Vulkan0", "a card"⟩, ⟨"Vulkan1", "another card"⟩]

/-- A Pool that gives one device two budgets is accepted, and every selector names a device, but the
    inference child refuses its assignments. -/
theorem two_budgets_refused :
    (budgetPool "vulkan0=20,vulkan0=12").validate localHost = .ok () ∧
    (budgetPool "vulkan0=20,vulkan0=12").Resolves id vulkanDevices ∧
    validateDeviceAssignments id (budgetPool "vulkan0=20,vulkan0=12").backend
      (budgetPool "vulkan0=20,vulkan0=12").runtime.moduleBackends
      (budgetPool "vulkan0=20,vulkan0=12").runtime.paramsBackend
      (budgetPool "vulkan0=20,vulkan0=12").runtime.maxVram vulkanDevices =
      .error (.invalidRequest "max_vram cannot assign a device more than once") := by
  refine ⟨rfl, ?_, rfl⟩
  have hselectors : (budgetPool "vulkan0=20,vulkan0=12").deviceSelectors =
      ["vulkan0", "vulkan0", "vulkan0"] := rfl
  intro selector hselector
  rw [hselectors] at hselector
  refine ⟨"Vulkan0", ?_⟩
  obtain rfl : selector = "vulkan0" := by simpa using hselector
  rfl

/-- Where the budgets are of different devices, the assignments are accepted. -/
theorem budgets_given :
    validateDeviceAssignments id (budgetPool "vulkan0=20,vulkan1=12").backend
        (budgetPool "vulkan0=20,vulkan1=12").runtime.moduleBackends
        (budgetPool "vulkan0=20,vulkan1=12").runtime.paramsBackend
        (budgetPool "vulkan0=20,vulkan1=12").runtime.maxVram vulkanDevices = .ok () ∧
      ∃ given, resolveRuntimeDeviceAssignments id (budgetPool "vulkan0=20,vulkan1=12").backend
          (budgetPool "vulkan0=20,vulkan1=12").runtime.moduleBackends
          (budgetPool "vulkan0=20,vulkan1=12").runtime.paramsBackend
          (budgetPool "vulkan0=20,vulkan1=12").runtime.maxVram vulkanDevices = .ok given ∧
        Normalizes id (budgetPool "vulkan0=20,vulkan1=12") vulkanDevices given := by
  have hselectors : (budgetPool "vulkan0=20,vulkan1=12").deviceSelectors =
      ["vulkan0", "vulkan0", "vulkan1"] := rfl
  refine (accepted_assignments_valid_iff id localHost
    (budgetPool "vulkan0=20,vulkan1=12") vulkanDevices rfl ?_).2 ?_
  · intro selector hselector
    rw [hselectors] at hselector
    have hcases : selector = "vulkan0" ∨ selector = "vulkan1" := by simpa using hselector
    rcases hcases with rfl | rfl
    · exact ⟨"Vulkan0", rfl⟩
    · exact ⟨"Vulkan1", rfl⟩
  · rintro value ⟨⟩
    have hitems : vramItems "vulkan0=20,vulkan1=12" = [("vulkan0", "20"), ("vulkan1", "12")] := rfl
    rw [hitems, List.pairwise_pair]
    rintro (hsame | ⟨hsame, -⟩)
    · exact absurd hsame (by decide)
    · exact absurd hsame (by decide)

end Gpq
