import Gpq.Lifecycle.Assignments

/-!
# Claims of devices

Every Pool runs on the devices that its selectors name. A number of a CUDA device is one of those
that the Pool's process sees: where `CUDA_VISIBLE_DEVICES` is set the entry of its list, otherwise
the device of the machine (`physicalDevice`).

The Pools of an accepted configuration claim different devices, but for CUDA devices that are
claimed under different numbers, or by Pools that differ in another selector variable
(`accepted_claims_disjoint_iff`).
-/

namespace Gpq

variable {quote : String → String} {devices : List BackendDevice} {pools : List PoolConfig}

/-! ## Physical devices -/

/-- A device of the machine: a CUDA device by its number or by another identifier, or the device of
    another backend by its enumerated name. -/
inductive PhysicalDevice
  | cuda (number : ℕ)
  | cudaNamed (identifier : String)
  | other (name : String)
  deriving DecidableEq

/-- The number of a CUDA device in the name that is enumerated. -/
def cudaIndex (name : String) : Option ℕ :=
  if "cuda".toList <+: asciiLowercase name then
    let digits := name.toList.drop 4
    if digits.all Char.isDigit then some (Nat.ofDigitChars 10 digits 0) else none
  else none

/-- The device that an entry of a list of visible devices is. -/
def entryDevice (entry : String) : PhysicalDevice :=
  if entry.toList.all Char.isDigit then .cuda (Nat.ofDigitChars 10 entry.toList 0)
    else .cudaNamed entry

/-- The CUDA devices that a Pool sees, if that is restricted. -/
def visibleDevices (pool : PoolConfig) : Option (List String) :=
  (pool.env.lookup "CUDA_VISIBLE_DEVICES").map selectorDevices

/-- What a CUDA number of a Pool is. -/
def cudaDevice (pool : PoolConfig) (index : ℕ) : Option PhysicalDevice :=
  match visibleDevices pool with
  | none => some (.cuda index)
  | some entries => entries[index]?.map entryDevice

/-- What an enumerated device is in a Pool; the CPU is none. -/
def physicalDevice (pool : PoolConfig) (name : String) : Option PhysicalDevice :=
  if eqIgnoreAsciiCase name "cpu" then none
  else match cudaIndex name with
    | some index => cudaDevice pool index
    | none => some (.other name)

/-- The selectors of a Pool's backend, its modules and its parameters. -/
def usedSelectors (pool : PoolConfig) : List String :=
  pool.backend :: pool.runtime.moduleBackends.entries.map (·.2) ++
    (pool.runtime.paramsBackend.elim [] fun value => (paramsItems value).map (·.2)).filter
      (· ≠ "disk")

/-- The names of the devices that a Pool uses. -/
def usedDevices (quote : String → String) (pool : PoolConfig) (devices : List BackendDevice) :
    List String :=
  (usedSelectors pool).filterMap fun selector => (resolveDevice quote selector devices).toOption

/-- The devices that a Pool claims. -/
def claimedDevices (quote : String → String) (pool : PoolConfig) (devices : List BackendDevice) :
    List PhysicalDevice :=
  (usedDevices quote pool devices).filterMap (physicalDevice pool)

/-- No two Pools claim the same device. -/
def ClaimsDisjoint (quote : String → String) (pools : List PoolConfig)
    (devices : List BackendDevice) : Prop :=
  pools.Pairwise fun left right =>
    List.Disjoint (claimedDevices quote left devices) (claimedDevices quote right devices)

/-! ## CUDA devices that are claimed twice -/

/-- The CUDA numbers that a Pool uses. -/
def cudaIndices (quote : String → String) (pool : PoolConfig) (devices : List BackendDevice) :
    List ℕ :=
  (usedDevices quote pool devices).filterMap cudaIndex

/-- Two Pools mean one device by CUDA numbers: both see all devices, and the numbers are the same;
    one of them sees a list, and its entry is the number of the other; or they see lists, and the
    entries are different numerals of one number. -/
def SameCuda (left right : PoolConfig) (i j : ℕ) : Prop :=
  match visibleDevices left, visibleDevices right with
  | none, none => i = j
  | some entries, none => ∃ entry, entries[i]? = some entry ∧ entryDevice entry = .cuda j
  | none, some entries => ∃ entry, entries[j]? = some entry ∧ entryDevice entry = .cuda i
  | some entries, some entries' => ∃ entry entry', entries[i]? = some entry ∧
    entries'[j]? = some entry' ∧
      entry ≠ entry' ∧ ∃ number, entryDevice entry = .cuda number ∧ entryDevice entry' = .cuda number

/-- No two Pools mean one device by CUDA numbers that they use. -/
def CudaPartitioned (quote : String → String) (pools : List PoolConfig)
    (devices : List BackendDevice) : Prop :=
  pools.Pairwise fun left right => ∀ i ∈ cudaIndices quote left devices,
    ∀ j ∈ cudaIndices quote right devices, ¬ SameCuda left right i j

/-! ## What the configuration checks -/

/-- The Pools of an accepted configuration are accepted. -/
theorem accepted_of_validatePools {host : Host} {seenKeys : List String}
    {seenListeners : List SocketAddr}
    (h : validatePools host pools seenKeys seenListeners = .ok ()) :
    ∀ pool ∈ pools, pool.Accepted := by
  induction pools generalizing seenKeys seenListeners with
  | nil => nofun
  | cons pool pools ih =>
    rw [validatePools, Traverse.ensure_bind_eq_ok_iff] at h
    obtain ⟨-, h⟩ := h
    obtain ⟨_, hpool, h⟩ := Traverse.bind_eq_ok_iff.1 h
    obtain ⟨listener, -, h⟩ := Traverse.bind_eq_ok_iff.1 h
    obtain ⟨-, h⟩ := Traverse.ensure_bind_eq_ok_iff.1 h
    obtain ⟨-, h⟩ := Traverse.ensure_bind_eq_ok_iff.1 h
    exact List.forall_mem_cons.2 ⟨PoolConfig.accepted_of_validate hpool, ih h⟩

/-- The selectors of two Pools are different, unless they are CUDA selectors of Pools that differ in
    a variable. -/
theorem checkNativeOverlap_eq_ok_iff : checkNativeOverlap pools = .ok () ↔
    pools.Pairwise fun left right => ∀ s ∈ nativeDeviceClaims left, ∀ t ∈ nativeDeviceClaims right,
      normalizeDevice s = normalizeDevice t → cudaPoolsArePartitioned left right s := by
  induction pools with
  | nil => exact ⟨fun _ => .nil, fun _ => rfl⟩
  | cons left rest ih =>
    rw [checkNativeOverlap, List.pairwise_cons, ← ih, Traverse.bind_eq_ok_iff]
    have hchecks : (rest.forM fun right => (nativeDeviceClaims left).forM fun s =>
        (nativeDeviceClaims right).forM fun t => Traverse.ensure
          (¬ (normalizeDevice s = normalizeDevice t ∧ ¬ cudaPoolsArePartitioned left right s))
          ("pools `" ++ left.key ++ "` and `" ++ right.key ++ "` both claim native device `" ++ s ++
            "`")) = .ok () ↔
        ∀ right ∈ rest, ∀ s ∈ nativeDeviceClaims left, ∀ t ∈ nativeDeviceClaims right,
          normalizeDevice s = normalizeDevice t → cudaPoolsArePartitioned left right s := by
      simp only [Traverse.forM_eq_ok_iff, Traverse.ensure_eq_ok_iff, not_and, not_not]
    constructor
    · rintro ⟨_, hleft, hrest⟩
      exact ⟨hchecks.1 hleft, hrest⟩
    · rintro ⟨hleft, hrest⟩
      exact ⟨(), hchecks.2 hleft, hrest⟩

/-- Entries are claimed that were not claimed before. -/
theorem claimed_of_foldlM_claimDevice {variableName poolKey : String} {entries : List String}
    {claimed claimed' : AList fun _ : String => String}
    (h : entries.foldlM (claimDevice variableName poolKey) claimed = .ok claimed') :
    (∀ entry ∈ entries, entry ∉ claimed ∧ entry ∈ claimed') ∧
    ∀ entry ∈ claimed, entry ∈ claimed' := by
  induction entries generalizing claimed with
  | nil =>
    cases h
    exact ⟨nofun, fun _ h => h⟩
  | cons first entries ih =>
    rw [List.foldlM_cons] at h
    obtain ⟨claimed₁, hfirst, h⟩ := Traverse.bind_eq_ok_iff.1 h
    rw [claimDevice] at hfirst
    split at hfirst
    · cases hfirst
    · rename_i hnone
      cases hfirst
      obtain ⟨hentries, hkept⟩ := ih h
      have hkept' : ∀ entry ∈ claimed, entry ∈ claimed' := fun entry hentry =>
        hkept entry ((AList.mem_insert _).2 (.inr hentry))
      refine ⟨fun entry hentry => ?_, hkept'⟩
      rcases List.mem_cons.1 hentry with rfl | hentry
      · exact ⟨AList.lookup_eq_none.1 hnone, hkept entry ((AList.mem_insert _).2 (.inl rfl))⟩
      · obtain ⟨hfresh, hmem⟩ := hentries entry hentry
        exact ⟨fun hold => hfresh ((AList.mem_insert _).2 (.inr hold)), hmem⟩

/-- What a Pool lists in a variable was not listed by a Pool before it. -/
theorem disjoint_of_foldlM_claimDevices {variableName : String}
    {claimed claimed' : AList fun _ : String => String}
    (h : pools.foldlM (claimDevices variableName) claimed = .ok claimed') :
    (∀ pool ∈ pools, ∀ value ∈ pool.env.lookup variableName,
      ∀ entry ∈ selectorDevices value, entry ∉ claimed) ∧
    pools.Pairwise fun left right => ∀ l ∈ left.env.lookup variableName,
      ∀ r ∈ right.env.lookup variableName,
        List.Disjoint (selectorDevices l) (selectorDevices r) := by
  induction pools generalizing claimed with
  | nil => exact ⟨nofun, .nil⟩
  | cons pool pools ih =>
    rw [List.foldlM_cons] at h
    obtain ⟨claimed₁, hpool, h⟩ := Traverse.bind_eq_ok_iff.1 h
    obtain ⟨hrest, hpairs⟩ := ih h
    rw [List.forall_mem_cons, List.pairwise_cons]
    rw [claimDevices] at hpool
    split at hpool
    · rename_i hnone
      cases hpool
      refine ⟨⟨fun value hvalue => ?_, hrest⟩, fun right _ l hl => ?_, hpairs⟩
      · rw [hnone] at hvalue
        cases hvalue
      · rw [hnone] at hl
        cases hl
    · rename_i value hvalue
      obtain ⟨hentries, hkept⟩ := claimed_of_foldlM_claimDevice hpool
      refine ⟨⟨fun value' hvalue' entry hentry => ?_, fun right hright r hr entry hentry hold => ?_⟩,
        fun right hright l hl r hr entry hleft hright' => ?_, hpairs⟩
      · obtain rfl := Option.some.inj (hvalue.symm.trans hvalue')
        exact (hentries entry hentry).1
      · exact hrest right hright r hr entry hentry (hkept entry hold)
      · obtain rfl := Option.some.inj (hvalue.symm.trans hl)
        exact hrest right hright r hr entry hright' (hentries entry hleft).2

/-- What the check of a configuration finds of two of its Pools, the one before the other. -/
structure Separate (left right : PoolConfig) : Prop where
  visible : ∀ entries ∈ visibleDevices left, ∀ entries' ∈ visibleDevices right,
    entries.Disjoint entries'
  native : ∀ s ∈ nativeDeviceClaims left, ∀ t ∈ nativeDeviceClaims right,
    normalizeDevice s = normalizeDevice t → cudaPoolsArePartitioned left right s

/-- The Pools of an accepted configuration are accepted, and separate. -/
theorem separate_of_validate {host : Host} {config : WorkerConfig}
    (h : config.validate host = .ok ()) :
    (∀ pool ∈ config.pools, pool.Accepted) ∧ config.pools.Pairwise Separate := by
  rw [WorkerConfig.validate] at h
  obtain ⟨-, h⟩ := Traverse.ensure_bind_eq_ok_iff.1 h
  obtain ⟨-, h⟩ := Traverse.ensure_bind_eq_ok_iff.1 h
  obtain ⟨_, hpools, h⟩ := Traverse.bind_eq_ok_iff.1 h
  obtain ⟨_, hoverlap, -⟩ := Traverse.bind_eq_ok_iff.1 h
  rw [checkDeviceOverlap] at hoverlap
  obtain ⟨_, hvisible, hnative⟩ := Traverse.bind_eq_ok_iff.1 hoverlap
  have hcuda := Traverse.forM_eq_ok_iff.1 hvisible "CUDA_VISIBLE_DEVICES" List.mem_cons_self
  rcases hfold : config.pools.foldlM (claimDevices "CUDA_VISIBLE_DEVICES") ∅ with err | claimed
  · rw [hfold] at hcuda
    cases hcuda
  · refine ⟨accepted_of_validatePools hpools, ?_⟩
    refine ((disjoint_of_foldlM_claimDevices hfold).2.and
      (checkNativeOverlap_eq_ok_iff.1 hnative)).imp ?_
    rintro left right ⟨hdisjoint, hclaims⟩
    refine ⟨fun entries hentries entries' hentries' => ?_, hclaims⟩
    obtain ⟨l, hl, rfl⟩ := Option.map_eq_some_iff.1 hentries
    obtain ⟨r, hr, rfl⟩ := Option.map_eq_some_iff.1 hentries'
    exact hdisjoint l hl r hr

/-! ## The devices that a Pool uses -/

variable {pool left right : PoolConfig}

/-- The selectors of an accepted Pool are well formed. -/
theorem valid_of_mem_usedSelectors {s : String} (hpool : pool.Accepted)
    (hs : s ∈ usedSelectors pool) :
    validDeviceSelector s := by
  rcases List.mem_append.1 hs with hs | hs
  · rcases List.mem_cons.1 hs with rfl | hs
    · exact hpool.backend
    · obtain ⟨entry, hentry, rfl⟩ := List.mem_map.1 hs
      exact (hpool.modules entry hentry).2
  · obtain ⟨hs, hdisk⟩ := List.mem_filter.1 hs
    have hdisk' := of_decide_eq_true hdisk
    rcases hvalue : pool.runtime.paramsBackend with _ | value
    · rw [hvalue] at hs
      cases hs
    · rw [hvalue, Option.elim_some] at hs
      obtain ⟨item, hitem, rfl⟩ := List.mem_map.1 hs
      obtain ⟨part, hpart, rfl⟩ := List.mem_map.1 hitem
      have hvalid := hpool.paramsBackend value hvalue
      rw [validParamsBackend, Bool.or_eq_true, Bool.and_eq_true, decide_eq_true_iff,
        List.all_eq_true] at hvalid
      rcases hvalid with rfl | ⟨-, hparts⟩
      · have hparts : splitChar ',' "disk" = ["disk"] := by decide
        rw [hparts, List.mem_singleton] at hpart
        rw [hpart] at hdisk'
        exact absurd rfl hdisk'
      · exact (Bool.and_eq_true_iff.1 (hparts part hpart)).2

/-- The devices that a Pool uses are those of its selectors. -/
theorem exists_of_mem_usedDevices {name : String} (hpool : pool.Accepted)
    (h : name ∈ usedDevices quote pool devices) :
    ∃ s ∈ usedSelectors pool, validDeviceSelector s ∧ deviceOf devices s = some name := by
  obtain ⟨s, hs, hname⟩ := List.mem_filterMap.1 h
  have hvalid := valid_of_mem_usedSelectors hpool hs
  refine ⟨s, hs, hvalid, (@resolveDevice_eq_ok_iff quote s devices name hvalid).1 ?_⟩
  generalize resolveDevice quote s devices = result at hname
  rcases result with err | device
  · cases hname
  · exact congrArg Except.ok (Option.some.inj hname)

/-- A Pool claims its selectors, but for the CPU. -/
theorem mem_nativeDeviceClaims {s : String} (hs : s ∈ usedSelectors pool) (hcpu : s ≠ "cpu") :
    s ∈ nativeDeviceClaims pool := by
  refine List.mem_filter.2 ⟨?_, decide_eq_true hcpu⟩
  rcases List.mem_append.1 hs with hs | hs
  · exact List.mem_append_left _ hs
  · obtain ⟨hs, hdisk⟩ := List.mem_filter.1 hs
    refine List.mem_append_right _ ?_
    split
    · rename_i hvalue
      rw [hvalue] at hs
      cases hs
    · rename_i value hvalue
      rw [hvalue, Option.elim_some, paramsItems, List.map_map] at hs
      split
      · rename_i hdisk'
        have hparts : splitChar ',' "disk" = ["disk"] := by decide
        rw [hdisk', hparts, List.map_singleton, List.mem_singleton] at hs
        exact absurd hs (of_decide_eq_true hdisk)
      · exact hs

/-- What digits in lower case were, were digits. -/
theorem isDigit_of_toLower {c : Char} (h : c.toLower.isDigit) : c.isDigit := by
  delta Char.toLower at h
  split at h
  · rename_i hupper
    have hge : 65 ≤ c.val.toNat := UInt32.le_iff_toNat_le.1 hupper.1
    have hle : c.val.toNat ≤ 90 := UInt32.le_iff_toNat_le.1 hupper.2
    simp only [Char.isDigit, Bool.and_eq_true, decide_eq_true_eq, ge_iff_le, UInt32.le_iff_toNat_le,
      UInt32.toNat_add] at h
    have hdiff : ('a'.val - 'A'.val).toNat = 32 := by decide
    have hnine : '9'.val.toNat = 57 := by decide
    rw [hdiff, hnine] at h
    omega
  · exact h

/-- A device that is named by CUDA and digits has a CUDA number. -/
theorem cudaIndex_isSome {name : String} {digits : List Char} (hdigits : ∀ c ∈ digits, c.isDigit)
    (h : asciiLowercase name = "cuda".toList ++ digits) : (cudaIndex name).isSome := by
  have hdrop : (name.toList.drop 4).all Char.isDigit := by
    refine List.all_eq_true.2 fun c hc => isDigit_of_toLower (hdigits _ ?_)
    have hmap : (name.toList.drop 4).map Char.toLower = digits := by
      rw [List.map_drop]
      exact (congrArg (List.drop 4) h).trans (List.drop_left' rfl)
    exact hmap ▸ List.mem_map_of_mem hc
  rw [cudaIndex, if_pos ⟨digits, h.symm⟩, if_pos hdrop]
  rfl

/-- A CUDA selector names a device with a CUDA number. -/
theorem cudaIndex_isSome_of_selector {s name : String} (hs : validDeviceSelector s)
    (hcuda : (stripPrefix "cuda" (normalizeDevice s)).isSome)
    (hname : deviceOf devices s = some name) :
    (cudaIndex name).isSome := by
  have hspelled : ∃ digits : List Char, s.toList = "cuda".toList ++ digits ∧
      ∀ c ∈ digits, c.isDigit := by
    rcases normalizeDevice_cases s with hsame | ⟨rfl, hsame⟩ | ⟨rfl, hsame⟩ | ⟨rfl, -⟩
    · rw [hsame, stripPrefix] at hcuda
      split at hcuda
      · rename_i hstart
        rcases validDeviceSelector_iff.1 hs with rfl | ⟨pre, hpre, digits, hlist, hdigits⟩
        · exact absurd hstart (by decide)
        · obtain rfl | rfl | rfl : pre = "metal" ∨ pre = "vulkan" ∨ pre = "cuda" := by
            simpa using hpre
          · rw [hlist] at hstart
            exact absurd (List.cons_prefix_cons.1 hstart).1 (by decide)
          · rw [hlist] at hstart
            exact absurd (List.cons_prefix_cons.1 hstart).1 (by decide)
          · exact ⟨digits, hlist, hdigits⟩
      · cases hcuda
    · exact absurd hcuda (by decide)
    · exact absurd hcuda (by decide)
    · exact ⟨[], rfl, by simp⟩
  obtain ⟨digits, hlist, hdigits⟩ := hspelled
  rcases deviceOf_eq_some hs hname with h | ⟨rfl | rfl, -, -⟩ | ⟨rfl, -, -⟩ | ⟨-, -, h⟩
  · exact cudaIndex_isSome hdigits (h.trans hlist)
  · exact absurd (List.cons.inj hlist).1 (by decide)
  · exact absurd (List.cons.inj hlist).1 (by decide)
  · exact absurd (List.cons.inj hlist).1 (by decide)
  · exact @cudaIndex_isSome name ['0'] (List.forall_mem_singleton.2 (by decide)) h

/-! ## Two Pools -/

/-- A CUDA number is a CUDA device. -/
theorem cudaDevice_ne_other {index : ℕ} {name : String} :
    cudaDevice pool index ≠ some (.other name) := by
  rw [cudaDevice]
  split
  · nofun
  · intro h
    obtain ⟨entry, -, hentry⟩ := Option.map_eq_some_iff.1 h
    rw [entryDevice] at hentry
    split at hentry <;> cases hentry

/-- Two Pools mean one device by CUDA numbers where the numbers are of one device, unless their
    lists share an entry. -/
theorem sameCuda_iff {i j : ℕ} (hvisible : ∀ entries ∈ visibleDevices left,
    ∀ entries' ∈ visibleDevices right, entries.Disjoint entries') :
    SameCuda left right i j ↔ ∃ device, cudaDevice left i = some device ∧
    cudaDevice right j = some device := by
  rw [SameCuda, cudaDevice, cudaDevice]
  rcases hleft : visibleDevices left with _ | entries <;>
    rcases hright : visibleDevices right with _ | entries'
  · constructor
    · rintro rfl
      exact ⟨_, rfl, rfl⟩
    · rintro ⟨device, hi, hj⟩
      exact PhysicalDevice.cuda.inj (Option.some.inj (hi.trans hj.symm))
  · constructor
    · rintro ⟨entry, hentry, hnumber⟩
      exact ⟨.cuda i, rfl, Option.map_eq_some_iff.2 ⟨entry, hentry, hnumber⟩⟩
    · rintro ⟨device, hi, hj⟩
      cases hi
      exact Option.map_eq_some_iff.1 hj
  · constructor
    · rintro ⟨entry, hentry, hnumber⟩
      exact ⟨.cuda j, Option.map_eq_some_iff.2 ⟨entry, hentry, hnumber⟩, rfl⟩
    · rintro ⟨device, hi, hj⟩
      cases hj
      exact Option.map_eq_some_iff.1 hi
  · constructor
    · rintro ⟨entry, entry', hentry, hentry', -, number, hnumber, hnumber'⟩
      exact ⟨.cuda number, Option.map_eq_some_iff.2 ⟨entry, hentry, hnumber⟩,
        Option.map_eq_some_iff.2 ⟨entry', hentry', hnumber'⟩⟩
    · rintro ⟨device, hi, hj⟩
      obtain ⟨entry, hentry, hdevice⟩ := Option.map_eq_some_iff.1 hi
      obtain ⟨entry', hentry', hdevice'⟩ := Option.map_eq_some_iff.1 hj
      have hne : entry ≠ entry' := by
        rintro rfl
        exact hvisible entries hleft entries' hright (List.mem_of_getElem? hentry)
          (List.mem_of_getElem? hentry')
      refine ⟨entry, entry', hentry, hentry', hne, ?_⟩
      -- Different entries are one device only as numerals: another identifier is the entry itself.
      rw [entryDevice] at hdevice hdevice' ⊢
      split at hdevice
      · rename_i hdigits
        rw [if_pos hdigits]
        rw [← hdevice] at hdevice'
        exact ⟨_, rfl, hdevice'⟩
      · split at hdevice'
        · cases hdevice.trans hdevice'.symm
        · exact absurd (PhysicalDevice.cudaNamed.inj (hdevice.trans hdevice'.symm)) hne

/-- A device with a CUDA number is what the number is. -/
theorem physicalDevice_of_cudaIndex {name : String} {index : ℕ} (h : cudaIndex name = some index) :
    physicalDevice pool name = cudaDevice pool index := by
  have hcpu : ¬ eqIgnoreAsciiCase name "cpu" := by
    intro hcpu
    have hlower := of_decide_eq_true hcpu
    rw [cudaIndex] at h
    split at h
    · rename_i hpre
      rw [hlower] at hpre
      exact absurd hpre (by decide)
    · cases h
  rw [physicalDevice, if_neg hcpu, h]

/-- A claimed device is what a CUDA number is, or a device of another backend. -/
theorem mem_claimedDevices {device : PhysicalDevice}
    (h : device ∈ claimedDevices quote pool devices) :
    (∃ index ∈ cudaIndices quote pool devices, cudaDevice pool index = some device) ∨
    ∃ name ∈ usedDevices quote pool devices, ¬ eqIgnoreAsciiCase name "cpu" ∧ cudaIndex name = none ∧
      device = .other name := by
  obtain ⟨name, hname, hdevice⟩ := List.mem_filterMap.1 h
  rcases hindex : cudaIndex name with _ | index
  · rw [physicalDevice, hindex] at hdevice
    split at hdevice
    · cases hdevice
    · rename_i hcpu
      exact .inr ⟨name, hname, hcpu, hindex, (Option.some.inj hdevice).symm⟩
  · rw [physicalDevice_of_cudaIndex hindex] at hdevice
    exact .inl ⟨index, List.mem_filterMap.2 ⟨name, hname, hindex⟩, hdevice⟩

/-- What a CUDA number that a Pool uses is, the Pool claims. -/
theorem claimed_of_cudaIndices {device : PhysicalDevice} {index : ℕ}
    (h : index ∈ cudaIndices quote pool devices)
    (hdevice : cudaDevice pool index = some device) : device ∈ claimedDevices quote pool devices := by
  obtain ⟨name, hname, hindex⟩ := List.mem_filterMap.1 h
  exact List.mem_filterMap.2 ⟨name, hname, (physicalDevice_of_cudaIndex hindex).trans hdevice⟩

/-- Two separate Pools use no device of another backend both. -/
theorem Separate.not_both (h : Separate left right) (hleft : left.Accepted)
    (hright : right.Accepted) {name : String} (hcpu : ¬ eqIgnoreAsciiCase name "cpu")
    (hindex : cudaIndex name = none)
    (hl : name ∈ usedDevices quote left devices) (hr : name ∈ usedDevices quote right devices) :
    False := by
  obtain ⟨s, hs, hvalid, hname⟩ := exists_of_mem_usedDevices hleft hl
  obtain ⟨t, ht, hvalid', hname'⟩ := exists_of_mem_usedDevices hright hr
  have hne {u : String} (hu : validDeviceSelector u) (hu' : deviceOf devices u = some name) : u ≠
      "cpu" := by
    rintro rfl
    rcases deviceOf_eq_some hu hu' with h | ⟨h | h, -⟩ | ⟨h, -⟩ | ⟨h, -⟩
    · exact hcpu (decide_eq_true h)
    all_goals exact absurd h (by decide)
  have hsame : normalizeDevice s = normalizeDevice t := by
    rcases (deviceOf_eq_iff hvalid hvalid' hname hname').1 rfl with rfl | ⟨hsame, -⟩
    · rfl
    · exact hsame
  have hpartitioned := h.native s (mem_nativeDeviceClaims hs (hne hvalid hname)) t
    (mem_nativeDeviceClaims ht (hne hvalid' hname')) hsame
  have hsome := cudaIndex_isSome_of_selector hvalid (Bool.and_eq_true_iff.1 hpartitioned).1 hname
  rw [hindex] at hsome
  cases hsome

/-- Two separate Pools claim different devices exactly if they mean no CUDA device both. -/
theorem disjoint_claimedDevices_iff (hleft : left.Accepted) (hright : right.Accepted)
    (h : Separate left right) :
    List.Disjoint (claimedDevices quote left devices) (claimedDevices quote right devices) ↔
      ∀ i ∈ cudaIndices quote left devices, ∀ j ∈ cudaIndices quote right devices,
        ¬ SameCuda left right i j := by
  constructor
  · intro hdisjoint i hi j hj hsame
    obtain ⟨device, hdevice, hdevice'⟩ := (sameCuda_iff h.visible).1 hsame
    exact hdisjoint (claimed_of_cudaIndices hi hdevice) (claimed_of_cudaIndices hj hdevice')
  · intro hcuda device hl hr
    rcases mem_claimedDevices hl with ⟨i, hi, hdevice⟩ | ⟨name, hname, hcpu, hindex, hother⟩ <;>
      rcases mem_claimedDevices hr with ⟨j, hj, hdevice'⟩ | ⟨name', hname', -, -, hother'⟩
    · exact hcuda i hi j hj ((sameCuda_iff h.visible).2 ⟨device, hdevice, hdevice'⟩)
    · exact cudaDevice_ne_other (hother' ▸ hdevice)
    · exact cudaDevice_ne_other (hother ▸ hdevice')
    · obtain rfl := PhysicalDevice.other.inj (hother.symm.trans hother')
      exact h.not_both hleft hright hcpu hindex hname hname'

/-- The Pools of an accepted configuration claim different devices exactly if no two of them mean
    one device by CUDA numbers. -/
theorem accepted_claims_disjoint_iff (quote : String → String) (host : Host) (config : WorkerConfig)
    (devices : List BackendDevice) (haccepted : config.validate host = .ok ()) :
    ClaimsDisjoint quote config.pools devices ↔ CudaPartitioned quote config.pools devices := by
  obtain ⟨hpools, hseparate⟩ := separate_of_validate haccepted
  constructor
  · intro h
    refine (h.and hseparate).imp_of_mem fun hleft hright ⟨hdisjoint, hpair⟩ => ?_
    exact (disjoint_claimedDevices_iff (hpools _ hleft) (hpools _ hright) hpair).1 hdisjoint
  · intro h
    refine (h.and hseparate).imp_of_mem fun hleft hright ⟨hcuda, hpair⟩ => ?_
    exact (disjoint_claimedDevices_iff (hpools _ hleft) (hpools _ hright) hpair).2 hcuda

/-- Two Pools of the first CUDA device, with a value each of a selector variable. -/
def cudaPools (variableName value value' : String) : WorkerConfig where
  name := "worker"
  stateDir := "/var/lib/gpq"
  pools :=
    [{ localPool "first" "cuda0" "127.0.0.1:4001" with env := .singleton variableName value },
      { localPool "second" "cuda0" "127.0.0.1:4002" with env := .singleton variableName value' }]

/-- A machine with two CUDA cards. -/
def cudaCards : List BackendDevice := [⟨"CUDA0", "a card"⟩, ⟨"CUDA1", "another card"⟩]

/-- Pools that differ in a variable of another backend are accepted, but claim one CUDA device. -/
theorem hip_pools_share_cuda :
    (cudaPools "HIP_VISIBLE_DEVICES" "0" "1").validate localHost = .ok () ∧
    ¬ ClaimsDisjoint id (cudaPools "HIP_VISIBLE_DEVICES" "0" "1").pools cudaCards := by
  refine ⟨rfl, fun h => ?_⟩
  have hboth := List.pairwise_pair.1 h
  exact @hboth (.cuda 0) (by decide +kernel) (by decide +kernel)

/-- Pools that see a CUDA device each claim different ones. -/
theorem cuda_pools_disjoint :
    ClaimsDisjoint id (cudaPools "CUDA_VISIBLE_DEVICES" "0" "1").pools cudaCards := by
  refine (accepted_claims_disjoint_iff id localHost
    (cudaPools "CUDA_VISIBLE_DEVICES" "0" "1") cudaCards rfl).2 ?_
  refine List.pairwise_pair.2 fun i hi j hj => ?_
  obtain rfl : i = 0 := List.mem_singleton.1 hi
  obtain rfl : j = 0 := List.mem_singleton.1 hj
  rintro ⟨entry, entry', hentry, hentry', -, number, hnumber, hnumber'⟩
  obtain rfl : "0" = entry := Option.some.inj hentry
  obtain rfl : "1" = entry' := Option.some.inj hentry'
  exact absurd (hnumber.trans hnumber'.symm) (by decide)

end Gpq
