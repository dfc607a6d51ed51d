import Gpq.Worker.Models

/-!
# The members of a model

What is collected of a model directory is what is below it (`FileNode.Below`), each file and
directory once, in the order of the components of their paths, whatever the order in which the
directories are listed (`collects`). The members are told apart by their relative paths
(`Collects.relative_ne`).

* `contentHash_eq`: two models with the same metadata, the same metadata of members and the same
  content have the same hash.
-/

namespace Gpq

/-! ## Trees -/

namespace DirEntries

/-- The entries of a directory. -/
def toList : DirEntries → List (Bytes × Bool × FileNode)
  | nil => []
  | cons name symlink node rest => (name, symlink, node) :: rest.toList

end DirEntries

mutual

/-- The names in every directory are different, and have no slash. -/
def FileNode.WellFormed : FileNode → Prop
  | .directory _ _ entries => (entries.toList.map (·.1)).Nodup ∧ entries.WellFormed
  | _ => True

/-- No name has a slash, and what is below is well formed. -/
def DirEntries.WellFormed : DirEntries → Prop
  | .nil => True
  | .cons name _ node rest => 47 ∉ name ∧ node.WellFormed ∧ rest.WellFormed

end

/-- What is found in a model, and at which path. -/
inductive FileNode.At : FileNode → List Bytes → FileNode → Prop
  | here (node : FileNode) : At node [] node
  | entry {metadata : Metadata} {readable : Bool} {entries : DirEntries} {name : Bytes}
    {symlink : Bool}
      {node found : FileNode} {components : List Bytes} (h : (name, symlink, node) ∈ entries.toList)
      (hat : At node components found) : At (.directory metadata readable entries)
        (name :: components) found

/-- What is found in a model, but the model itself. -/
def FileNode.Below (node : FileNode) (components : List Bytes) (found : FileNode) : Prop :=
  components ≠ [] ∧ node.At components found

/-- The content of a model: the bytes of its files, with their paths below it. -/
def FileNode.content (node : FileNode) : Set (List Bytes × Bytes) :=
  {x | ∃ metadata readable, node.At x.1 (.file metadata readable x.2)}

/-- The names of entries have no slash. -/
theorem DirEntries.WellFormed.entry : ∀ {entries : DirEntries}, entries.WellFormed →
    ∀ x ∈ entries.toList,
    47 ∉ x.1 ∧ x.2.2.WellFormed
  | .cons _ _ _ _, h, x, hx => by
    rw [WellFormed] at h
    obtain rfl | hx := List.mem_cons.1 hx
    · exact ⟨h.1, h.2.1⟩
    · exact h.2.2.entry x hx

/-- No name on the way has a slash. -/
theorem FileNode.At.not_slash {node found : FileNode} {components : List Bytes}
    (h : node.At components found)
    (hwell : node.WellFormed) : ∀ name ∈ components, 47 ∉ name := by
  induction h with
  | here => exact nofun
  | entry hentry _ ih =>
    rw [FileNode.WellFormed] at hwell
    obtain ⟨hname, hnode⟩ := hwell.2.entry _ hentry
    exact List.forall_mem_cons.2 ⟨hname, ih hnode⟩

/-! ## Collected members -/

/-- The file that is hashed. -/
def FileNode.modelFile : FileNode → Option ModelFile
  | .file metadata readable bytes => some { size := metadata.len, readable, bytes }
  | _ => none

/-- A member is of what is found. -/
structure ModelMember.Of (member : ModelMember) (node : FileNode) : Prop where
  relative : relativeModelPath member.components = .ok member.relative
  key : cacheKey node = .ok member.key
  file : member.file = node.modelFile

/-- The order of members: that of the components of their paths, by their bytes. -/
def ModelMember.order (member : ModelMember) : List (List ℕ) := member.components.map nameKey

/-- What is collected of an entry: itself, and what is below it. -/
theorem collectEntry_eq_ok {path : String} {components : List Bytes} {symlink : Bool}
    {node : FileNode} {below : Except String (List ModelMember)} {members : List ModelMember}
    (h : collectEntry path components symlink node below = .ok members) :
    ∃ first rest, members = first :: rest ∧ first.components = components ∧ first.Of node ∧
      (node.isDir → below = .ok rest) ∧ (¬ node.isDir → rest = []) := by
  rw [collectEntry] at h
  obtain ⟨relative, hrelative, h⟩ := Traverse.bind_eq_ok_iff.1 h
  obtain ⟨key, hkey, h⟩ := Traverse.bind_eq_ok_iff.1 h
  cases node with
  | file metadata readable bytes =>
    cases h
    exact ⟨_, [], rfl, rfl, ⟨hrelative, hkey, rfl⟩, nofun, fun _ => rfl⟩
  | directory metadata readable entries =>
    dsimp only at h
    rw [Traverse.ensure_bind_eq_ok_iff] at h
    obtain ⟨rest, hbelow, hmembers⟩ := Traverse.bind_eq_ok_iff.1 h.2
    cases hmembers
    exact ⟨_, rest, rfl, rfl, ⟨hrelative, hkey, rfl⟩, fun _ => hbelow, fun hdir => absurd rfl hdir⟩
  | special metadata => cases h

/-- What is collected of the entries of a directory. -/
theorem collectEntries_eq (path : String) (components : List Bytes) : ∀ entries : DirEntries,
    collectEntries path components entries = entries.toList.map fun (name, symlink, node) =>
      (name, collectEntry (path ++ "/" ++ (Utf8.decode name).getD "")
        (components ++ [name]) symlink node
        (collectModelFiles (path ++ "/" ++ (Utf8.decode name).getD "") (components ++ [name]) node))
  | .nil => rfl
  | .cons name symlink node rest => by
    rw [collectEntries, DirEntries.toList, List.map_cons, collectEntries_eq path components rest]

/-- The members of `found`, each once and in order, at paths below `components`. -/
structure Collects (found : List Bytes → FileNode → Prop) (components : List Bytes)
    (members : List ModelMember) : Prop where
  sorted : members.Pairwise fun a b => a.order < b.order
  sound : ∀ member ∈ members, ∃ below node, found below node ∧
    member.components = components ++ below ∧ member.Of node
  complete : ∀ below node, found below node →
    ∃ member ∈ members, member.components = components ++ below ∧
    member.Of node

/-- What is collected of an entry is the entry, and what is below it. -/
theorem collectEntry_collects {path : String} {components : List Bytes} {symlink : Bool}
    {node : FileNode} {members : List ModelMember}
    (hbelow : ∀ rest, collectModelFiles path components node = .ok rest →
      Collects node.Below components rest)
    (h : collectEntry path components symlink node (collectModelFiles path components node) =
      .ok members) :
    Collects node.At components members := by
  obtain ⟨first, rest, rfl, hcomponents, hof, hdir, hfile⟩ := collectEntry_eq_ok h
  have hrest : Collects node.Below components rest := by
    cases node with
    | directory metadata readable entries => exact hbelow rest (hdir rfl)
    | file metadata readable bytes => exact hfile nofun ▸ hbelow [] rfl
    | special metadata => exact hfile nofun ▸ hbelow [] rfl
  refine ⟨List.pairwise_cons.2 ⟨fun member hmember => ?_, hrest.sorted⟩, fun member hmember => ?_,
    fun below found hat => ?_⟩
  · obtain ⟨below, found, hat, heq, -⟩ := hrest.sound member hmember
    obtain ⟨name, names, rfl⟩ := List.exists_cons_of_ne_nil hat.1
    rw [ModelMember.order, ModelMember.order, hcomponents, heq, List.map_append]
    conv_lhs => rw [← List.append_nil (components.map nameKey)]
    exact List.append_left_lt (List.nil_lt_cons _ _)
  · obtain rfl | hmember := List.mem_cons.1 hmember
    · exact ⟨[], node, .here node, by rw [hcomponents, List.append_nil], hof⟩
    · obtain ⟨below, found, hat, heq, hof'⟩ := hrest.sound member hmember
      exact ⟨below, found, hat.2, heq, hof'⟩
  · by_cases hnil : below = []
    · subst hnil
      cases hat
      exact ⟨first, List.mem_cons_self, by rw [hcomponents, List.append_nil], hof⟩
    · obtain ⟨member, hmember, heq⟩ := hrest.complete below found ⟨hnil, hat⟩
      exact ⟨member, List.mem_cons_of_mem _ hmember, heq⟩

/-- What was collected of an entry. -/
def collected (x : Bytes × Except String (List ModelMember)) : List ModelMember :=
  x.2.toOption.getD []

/-- The members of a directory are those of its entries, in the order of the names. -/
theorem collectModelFiles_eq_ok {path : String} {components : List Bytes} {metadata : Metadata}
    {readable : Bool} {entries : DirEntries} {members : List ModelMember}
    (h : collectModelFiles path components (.directory metadata readable entries) = .ok members) :
    ∃ sorted : List (Bytes × Except String (List ModelMember)),
      sorted.Perm (collectEntries path components entries) ∧
      sorted.Pairwise (fun a b => nameKey a.1 ≤ nameKey b.1) ∧
      (∀ x ∈ sorted, x.2 = .ok (collected x)) ∧
      members = sorted.flatMap collected := by
  rw [collectModelFiles, Traverse.ensure_bind_eq_ok_iff] at h
  obtain ⟨parts, hparts, heq⟩ := Traverse.bind_eq_ok_iff.1 h.2
  cases heq
  have hok : ∀ x part, x.2 = .ok part → x.2 = .ok (collected x) ∧ part = collected x := by
    rintro ⟨name, _⟩ part rfl
    exact ⟨rfl, rfl⟩
  refine ⟨_, List.perm_insertionSort _ _, List.pairwise_insertionSort _ _, fun x hx => ?_, ?_⟩
  · obtain ⟨part, _, hpart⟩ := Traverse.exists_of_mapM hparts hx
    exact (hok x part hpart).1
  · rw [List.flatMap, ← Traverse.map_of_mapM hparts fun x part hpart => (hok x part hpart).2,
      List.map_id']

theorem nameKey_injective : Function.Injective nameKey :=
  List.map_injective_iff.2 fun _ _ h => UInt8.toNat.inj h

/-- The members of an entry come before those of an entry with a higher name. -/
theorem order_lt_of_name_lt {components below below' : List Bytes} {name name' : Bytes}
    {member member' : ModelMember} (hlt : nameKey name < nameKey name')
    (h : member.components = components ++ name :: below)
    (h' : member'.components = components ++ name' :: below') : member.order < member'.order := by
  rw [ModelMember.order, ModelMember.order, h, h', List.map_append, List.map_append]
  exact List.append_left_lt (List.cons_lt_cons_iff.2 (.inl hlt))

/-- What is collected of a directory is what is below it, if that holds of its entries. -/
theorem collectModelFiles_collects {path : String} {components : List Bytes} {metadata : Metadata}
    {readable : Bool} {entries : DirEntries} {members : List ModelMember}
    (hnames : (entries.toList.map (·.1)).Nodup)
    (hentries : ∀ x ∈ entries.toList, ∀ path components rest,
      collectModelFiles path components x.2.2 = .ok rest →
      Collects x.2.2.Below components rest)
    (h : collectModelFiles path components (.directory metadata readable entries) = .ok members) :
    Collects (FileNode.Below (.directory metadata readable entries)) components members := by
  obtain ⟨sorted, hperm, hsorted, hok, rfl⟩ := collectModelFiles_eq_ok h
  rw [collectEntries_eq] at hperm
  have hcollects : ∀ x ∈ sorted, ∃ symlink node, (x.1, symlink, node) ∈ entries.toList ∧
      Collects node.At (components ++ [x.1]) (collected x) := by
    intro x hx
    obtain ⟨⟨name, symlink, node⟩, hentry, rfl⟩ := List.mem_map.1 (hperm.mem_iff.1 hx)
    exact ⟨symlink, node, hentry, collectEntry_collects (hentries _ hentry _ _) (hok _ hx)⟩
  have hdistinct : sorted.Pairwise fun a b => a.1 ≠ b.1 := by
    rw [← List.pairwise_map, ← List.nodup_iff_pairwise_ne, (hperm.map _).nodup_iff, List.map_map]
    exact hnames
  refine ⟨List.pairwise_flatMap.2 ⟨fun x hx => ?_, ?_⟩, fun member hmember => ?_, ?_⟩
  · obtain ⟨_, _, _, hof⟩ := hcollects x hx
    exact hof.sorted
  · refine (hsorted.and hdistinct).imp_of_mem
      fun {x y} hx hy hxy member hmember member' hmember' => ?_
    obtain ⟨_, _, _, hof⟩ := hcollects x hx
    obtain ⟨_, _, _, hof'⟩ := hcollects y hy
    obtain ⟨_, _, _, heq, -⟩ := hof.sound member hmember
    obtain ⟨_, _, _, heq', -⟩ := hof'.sound member' hmember'
    rw [List.append_assoc] at heq heq'
    have hlt : nameKey x.1 < nameKey y.1 :=
      lt_of_le_of_ne hxy.1 fun hkey => hxy.2 (nameKey_injective hkey)
    exact order_lt_of_name_lt hlt heq heq'
  · obtain ⟨x, hx, hmember⟩ := List.mem_flatMap.1 hmember
    obtain ⟨symlink, node, hentry, hof⟩ := hcollects x hx
    obtain ⟨below, found, hat, heq, hfound⟩ := hof.sound member hmember
    exact ⟨x.1 :: below, found, ⟨List.cons_ne_nil _ _, .entry hentry hat⟩,
      by rw [heq, List.append_assoc]; rfl, hfound⟩
  · rintro below found ⟨hnil, hat⟩
    cases hat with
    | here => exact absurd rfl hnil
    | entry hentry hat =>
      have hx := hperm.mem_iff.2 (List.mem_map.2 ⟨_, hentry, rfl⟩)
      have hof := collectEntry_collects (hentries _ hentry _ _) (hok _ hx)
      obtain ⟨member, hmember, heq, hfound⟩ := hof.complete _ found hat
      exact ⟨member, List.mem_flatMap.2 ⟨_, hx, hmember⟩, by rw [heq, List.append_assoc]; rfl, hfound⟩

mutual

/-- What is collected of a model is what is below it. -/
theorem collects :
    ∀ (node : FileNode) (path : String) (components : List Bytes) (members : List ModelMember),
    node.WellFormed → collectModelFiles path components node = .ok members →
    Collects node.Below components members
  | .directory _ _ entries, _, _, _, hwell, h => by
    rw [FileNode.WellFormed] at hwell
    exact collectModelFiles_collects hwell.1 (collects_entries entries hwell.2) h
  | .file _ _ _, _, _, _, _, h => by
    cases h
    exact ⟨.nil, nofun, fun below found hat => by cases hat.2; exact absurd rfl hat.1⟩
  | .special _, _, _, _, _, h => by
    cases h
    exact ⟨.nil, nofun, fun below found hat => by cases hat.2; exact absurd rfl hat.1⟩

/-- What is collected below an entry of a directory. -/
theorem collects_entries : ∀ entries : DirEntries, entries.WellFormed → ∀ x ∈ entries.toList,
    ∀ (path : String) (components : List Bytes) (members : List ModelMember),
      collectModelFiles path components x.2.2 = .ok members → Collects x.2.2.Below components members
  | .cons name symlink node rest, hwell, x, hx, path, components, members, h => by
    rw [DirEntries.WellFormed] at hwell
    obtain rfl | hx := List.mem_cons.1 hx
    · exact collects node path components members hwell.2.1 h
    · exact collects_entries rest hwell.2.2 x hx path components members h

end

/-! ## Relative paths -/

/-- The components of a relative path are read from its text. -/
theorem components_of_relative {components : List Bytes} {relative : String} (hnil : components ≠ [])
    (hslash : ∀ name ∈ components, 47 ∉ name) (h : relativeModelPath components = .ok relative) :
    components = (relative.toList.splitOn '/').map fun name => Utf8.bytes (String.ofList name) := by
  rw [relativeModelPath] at h
  cases htexts : components.mapM Utf8.decode with
  | none =>
    rw [htexts] at h
    cases h
  | some texts =>
    rw [htexts] at h
    cases h
    have hbytes := Utf8.map_bytes_of_mapM htexts
    have hplain : ∀ name ∈ texts.map String.toList, '/' ∉ name := by
      intro name hname hmem
      obtain ⟨text, htext, rfl⟩ := List.mem_map.1 hname
      exact hslash _ (hbytes ▸ List.mem_map_of_mem htext)
        (Utf8.mem_bytes_of_mem (c := '/') (by decide) hmem)
    have hne : texts.map String.toList ≠ [] := by
      rintro hempty
      rw [List.map_eq_nil_iff.1 hempty] at hbytes
      exact hnil hbytes.symm
    have hsep : "/".toList = ['/'] := by decide
    rw [String.toList_intercalate, hsep, List.splitOn_intercalate _ hplain hne, List.map_map,
      ← hbytes]
    exact List.map_congr_left fun text _ => congrArg Utf8.bytes text.ofList_toList.symm

/-! ## Members of a model -/

/-- What was read of a model. -/
structure ReadOf (node : FileNode) (key : CacheKey) (members : List ModelMember) : Prop where
  key : cacheKey node = .ok key
  special : ∀ metadata, node ≠ .special metadata
  members : Collects node.Below [] members

/-- What is read of a model is what is found there. -/
theorem readModel_eq_ok {label path : String} {files : Files} {key : CacheKey}
    {members : List ModelMember} {node : FileNode} (hwell : ∀ node ∈ files path, node.WellFormed)
    (h : readModel label files path = .ok (key, members, node)) :
    files path = some node ∧ ReadOf node key members := by
  rw [readModel] at h
  obtain ⟨found, hfound, h⟩ := Traverse.bind_eq_ok_iff.1 h
  obtain ⟨k, hkey, h⟩ := Traverse.bind_eq_ok_iff.1 h
  obtain ⟨m, hmembers, h⟩ := Traverse.bind_eq_ok_iff.1 h
  cases h
  cases hnode : files path with
  | none =>
    rw [hnode] at hfound
    cases hfound
  | some node =>
    rw [hnode] at hfound
    cases hfound
    refine ⟨rfl, hkey, ?_, ?_⟩
    · rintro metadata rfl
      cases hmembers
    · cases node with
      | directory metadata readable entries =>
        exact collects _ path [] members (hwell _ hnode) hmembers
      | file metadata readable bytes => exact collects _ path [] members trivial hmembers
      | special metadata => cases hmembers

/-- Every member has its key under its path, for no two members have the same. -/
theorem lookup_memberKeys {members : List ModelMember}
    (h : members.Pairwise fun a b => a.relative ≠ b.relative) {member : ModelMember}
    (hmember : member ∈ members) :
    (memberKeys members).lookup member.relative = some member.key := by
  induction members using List.reverseRecOn with
  | nil => cases hmember
  | append_singleton members last ih =>
    rw [List.pairwise_append] at h
    rw [memberKeys, List.foldl_append, List.foldl_cons, List.foldl_nil]
    obtain hmember | hlast := List.mem_append.1 hmember
    · rw [Finmap.lookup_insert_of_ne _ (h.2.2 member hmember last (List.mem_singleton_self last))]
      exact ih h.1 hmember
    · rw [List.mem_singleton.1 hlast]
      exact Finmap.lookup_insert _

/-- Members are told apart by their relative paths. -/
theorem Collects.relative_ne {node : FileNode} {members : List ModelMember} (hwell : node.WellFormed)
    (h : Collects node.Below [] members) : members.Pairwise fun a b => a.relative ≠ b.relative := by
  have hsplit : ∀ member ∈ members, member.components =
      (member.relative.toList.splitOn '/').map fun name => Utf8.bytes (String.ofList name) := by
    intro member hmember
    obtain ⟨below, found, hat, heq, hof⟩ := h.sound member hmember
    rw [List.nil_append] at heq
    exact components_of_relative (heq ▸ hat.1) (heq ▸ hat.2.not_slash hwell) hof.relative
  refine h.sorted.imp_of_mem fun {a b} ha hb hlt heq => hlt.ne ?_
  rw [ModelMember.order, ModelMember.order, hsplit a ha, hsplit b hb, heq]

/-! ## The hash of content -/

section Hash

variable (sha256 : Bytes → ContentHash)

/-- The hash of what is found, whether it can be read or not. -/
def contentHash (node : FileNode) (members : List ModelMember) : ContentHash :=
  match node with
  | .file _ _ bytes => sha256 bytes
  | _ => sha256 (directoryBytes (memberFiles members))

/-- A model that can be hashed is hashed as it is. -/
theorem digestModel_eq_ok {path : String} {node : FileNode} {members : List ModelMember}
    {hash : ContentHash} (h : digestModel sha256 path node members = .ok hash) :
    hash = contentHash sha256 node members := by
  cases node with
  | file metadata readable bytes =>
    exact (Except.ok.inj (Traverse.ensure_bind_eq_ok_iff.1 h).2).symm
  | directory metadata readable entries =>
    obtain ⟨_, _, heq⟩ := Traverse.bind_eq_ok_iff.1 h
    exact (Except.ok.inj heq).symm
  | special metadata =>
    obtain ⟨_, _, heq⟩ := Traverse.bind_eq_ok_iff.1 h
    exact (Except.ok.inj heq).symm

/-- What is hashed of the files among the members: the components of their paths, their relative
    paths, sizes and bytes. -/
def hashedFiles (members : List ModelMember) : List (List Bytes × String × ℕ × Bytes) :=
  members.filterMap fun member => member.file.map fun file => (member.components, member.relative,
    file.size, file.bytes)

/-- Of a directory, exactly its files are hashed, in order. -/
theorem directoryBytes_memberFiles (members : List ModelMember) :
    directoryBytes (memberFiles members) =
    Utf8.bytes "gpq-model-directory-v1" ++ [0] ++
      (hashedFiles members).flatMap fun (_, relative, size, bytes) =>
      fileBytes relative ⟨size, true, bytes⟩ := by
  rw [directoryBytes]
  congr 1
  induction members with
  | nil => rfl
  | cons member members ih =>
    rw [memberFiles, hashedFiles, List.filterMap_cons, List.filterMap_cons]
    cases member.file with
    | none => exact ih
    | some file =>
      dsimp only [Option.map_some]
      rw [List.flatMap_cons, List.flatMap_cons]
      exact congrArg _ ih

/-- They are the members that are files. -/
theorem mem_hashedFiles {members : List ModelMember} {x : List Bytes × String × ℕ × Bytes} :
    x ∈ hashedFiles members ↔ ∃ member ∈ members, ∃ file, member.file = some file ∧
      x = (member.components, member.relative, file.size, file.bytes) := by
  rw [hashedFiles, List.mem_filterMap]
  refine exists_congr fun member => and_congr_right fun _ => ?_
  rw [Option.map_eq_some_iff]
  exact exists_congr fun file => and_congr_right fun _ => eq_comm

theorem cacheKey_eq_ok {node : FileNode} {key : CacheKey} (h : cacheKey node = .ok key) :
    key.size = node.metadata.len ∧ key.directory = node.isDir := by
  obtain ⟨-, heq⟩ := Traverse.ensure_bind_eq_ok_iff.1 h
  cases heq
  exact ⟨rfl, rfl⟩

/-- The files that are hashed are those of the content, with the sizes in the metadata. -/
theorem hashedFiles_subset {node node' : FileNode} {members members' : List ModelMember}
    (hwell : node.WellFormed) (hwell' : node'.WellFormed) (h : Collects node.Below [] members)
    (h' : Collects node'.Below [] members')
    (hkeys : memberKeys members = memberKeys members') (hcontent : node.content = node'.content) :
    hashedFiles members ⊆ hashedFiles members' := by
  intro x hx
  obtain ⟨member, hmember, file, hfile, rfl⟩ := mem_hashedFiles.1 hx
  obtain ⟨_, found, hat, rfl, hof⟩ := h.sound member hmember
  obtain ⟨metadata, readable, bytes, rfl, rfl⟩ : ∃ metadata readable bytes,
      found = .file metadata readable bytes ∧ file = ⟨metadata.len, readable, bytes⟩ := by
    rw [hof.file] at hfile
    cases found with
    | file metadata readable bytes => exact ⟨metadata, readable, bytes, rfl,
      (Option.some.inj hfile).symm⟩
    | directory metadata readable entries => cases hfile
    | special metadata => cases hfile
  -- The content has the file, so that the other model has it at the same path.
  have hmem : (member.components, bytes) ∈ node'.content := hcontent ▸ ⟨metadata, readable, hat.2⟩
  obtain ⟨metadata', readable', hat'⟩ := hmem
  obtain ⟨member', hmember', heq, hof'⟩ := h'.complete _ _ ⟨hat.1, hat'⟩
  rw [List.nil_append] at heq
  have hrelative : member.relative = member'.relative :=
    Except.ok.inj (hof.relative.symm.trans (heq ▸ hof'.relative))
  -- Its size is in the metadata of the member.
  have hkey : member.key = member'.key := by
    have hlookup := lookup_memberKeys (h.relative_ne hwell) hmember
    rw [hkeys, hrelative, lookup_memberKeys (h'.relative_ne hwell') hmember'] at hlookup
    exact (Option.some.inj hlookup).symm
  have hsize : metadata.len = metadata'.len :=
    calc metadata.len = member.key.size := (cacheKey_eq_ok hof.key).1.symm
      _ = member'.key.size := by rw [hkey]
      _ = metadata'.len := (cacheKey_eq_ok hof'.key).1
  refine mem_hashedFiles.2 ⟨member', hmember', _, hof'.file, ?_⟩
  rw [heq, hrelative, hsize]

/-- They are in the order of their paths. -/
theorem hashedFiles_sorted {found : List Bytes → FileNode → Prop} {components : List Bytes}
    {members : List ModelMember} (h : Collects found components members) :
    (hashedFiles members).Pairwise fun a b => a.1.map nameKey < b.1.map nameKey := by
  refine h.sorted.filterMap _ fun a b hlt x hx y hy => ?_
  obtain ⟨_, _, rfl⟩ := Option.map_eq_some_iff.1 hx
  obtain ⟨_, _, rfl⟩ := Option.map_eq_some_iff.1 hy
  exact hlt

/-- Models with the same metadata and the same content have the same hash. -/
theorem contentHash_eq {node node' : FileNode} {key : CacheKey} {members members' : List ModelMember}
    (hwell : node.WellFormed) (hwell' : node'.WellFormed) (h : ReadOf node key members)
    (h' : ReadOf node' key members') (hkeys : memberKeys members = memberKeys members')
    (hcontent : node.content = node'.content) :
    contentHash sha256 node members = contentHash sha256 node' members' := by
  have hdir : node.isDir = node'.isDir :=
    (cacheKey_eq_ok h.key).2.symm.trans (cacheKey_eq_ok h'.key).2
  have hfiles : directoryBytes (memberFiles members) = directoryBytes (memberFiles members') := by
    have heq : hashedFiles members = hashedFiles members' := by
      refine (hashedFiles_sorted h.members).eq_of_mem_iff (hashedFiles_sorted h'.members) fun x =>
        ⟨fun hx => ?_, fun hx => ?_⟩
      · exact hashedFiles_subset hwell hwell' h.members h'.members hkeys hcontent hx
      · exact hashedFiles_subset hwell' hwell h'.members h.members hkeys.symm hcontent.symm hx
    rw [directoryBytes_memberFiles, directoryBytes_memberFiles, heq]
  cases node with
  | special metadata => exact absurd rfl (h.special metadata)
  | directory metadata readable entries =>
    cases node' with
    | special metadata' => exact absurd rfl (h'.special metadata')
    | directory metadata' readable' entries' => exact congrArg sha256 hfiles
    | file metadata' readable' bytes' => cases hdir
  | file metadata readable bytes =>
    cases node' with
    | special metadata' => exact absurd rfl (h'.special metadata')
    | directory metadata' readable' entries' => cases hdir
    | file metadata' readable' bytes' =>
      have hmem : (([] : List Bytes), bytes) ∈ FileNode.content (.file metadata' readable' bytes') :=
        hcontent ▸ ⟨metadata, readable, .here _⟩
      obtain ⟨_, _, hat⟩ := hmem
      cases hat
      rfl

end Hash

end Gpq
