import EmbeddingServer.Lib.Layout
import EmbeddingServer.Models.Staging
import EmbeddingServer.Models.Fingerprint

/-!
# The layout of an installed model

An installation writes every artifact below the staging directory and the identity record
`manifest.json` next to them. `validate_artifacts` compares the paths of the artifacts as
portable paths, that is in lower case, and refuses equal ones and ones that go through another.
The identity record it refuses by name only. `ConflictFree` is what the installation needs of
all the paths together.
-/

namespace EmbeddingServer

open Layout

/-! ## Portable paths -/

/-- The components of a path as `validate_artifacts` compares them. -/
def portableComponents (path : String) : List (List Char) :=
  (splitSlash path).map fun component => component.map Char.toLower

/-- Lower case neither makes nor hides a slash. -/
theorem to_lower_eq_slash (c : Char) : c.toLower = '/' ↔ c = '/' := by
  by_cases hupper : c.val ≥ 'A'.val ∧ c.val ≤ 'Z'.val
  · have hval : c.toLower.val = c.val + 32 := congrArg Char.val (dif_pos hupper)
    obtain ⟨hlow, hhigh⟩ := is_upper_iff_to_nat.mp (decide_eq_true hupper)
    constructor
    · intro heq
      have hsum := congrArg UInt32.toNat hval
      rw [heq, UInt32.toNat_add] at hsum
      simp at hsum
      omega
    · rintro rfl
      simp at hlow
  · rw [show c.toLower = c from dif_neg hupper]

/-- Splitting commutes with a change of characters that respects the separator. -/
theorem split_on_map {f : Char → Char} {separator : Char}
    (hf : ∀ c, f c = separator ↔ c = separator) (text : List Char) :
    (text.map f).splitOn separator = (text.splitOn separator).map fun part => part.map f := by
  induction text with
  | nil => simp
  | cons c rest ih =>
      rw [List.map_cons, List.splitOn_cons_eq_if_modifyHead, List.splitOn_cons_eq_if_modifyHead,
        ih]
      by_cases hc : c = separator
      · simp [hc, (hf separator).mpr rfl]
      · have hfc : f c ≠ separator := fun heq => hc ((hf c).mp heq)
        cases hparts : rest.splitOn separator with
        | nil => exact absurd hparts (List.splitOn_ne_nil _ _)
        | cons part parts => simp [hc, hfc]

theorem portable_components_eq (path : String) :
    portableComponents path = (toAsciiLowercase path).splitOn '/' :=
  (split_on_map to_lower_eq_slash path.toList).symm

/-- The child of an ancestor continues it with a slash. -/
theorem is_path_ancestor_iff {parent child : List Char} :
    isPathAncestor parent child = true ↔ ∃ rest, child = parent ++ '/' :: rest := by
  rw [isPathAncestor, Bool.and_eq_true, List.isPrefixOf_iff_prefix, decide_eq_true_eq]
  constructor
  · rintro ⟨⟨suffix, rfl⟩, hhead⟩
    rw [List.drop_left, List.head?_eq_some_iff] at hhead
    obtain ⟨rest, rfl⟩ := hhead
    exact ⟨rest, rfl⟩
  · rintro ⟨rest, rfl⟩
    exact ⟨List.prefix_append _ _, by rw [List.drop_left]; rfl⟩

/-- Joining two groups of components puts a slash between them. -/
theorem intercalate_append {left right : List (List Char)} (hleft : left ≠ [])
    (hright : right ≠ []) :
    ['/'].intercalate (left ++ right) =
      ['/'].intercalate left ++ '/' :: ['/'].intercalate right := by
  induction left with
  | nil => exact absurd rfl hleft
  | cons part rest ih =>
      cases rest with
      | nil =>
          obtain ⟨next, others, rfl⟩ := List.exists_cons_of_ne_nil hright
          simp [List.intercalate, List.intersperse]
      | cons next rest =>
          have hih := ih (List.cons_ne_nil _ _)
          simp only [List.intercalate, List.cons_append, List.intersperse_cons_cons,
            List.flatten_cons] at hih ⊢
          rw [hih]
          simp

/-- The components of one text begin those of another exactly when the texts are equal or the
first is an ancestor of the second. -/
theorem split_on_prefix_iff {parent child : List Char} :
    parent.splitOn '/' <+: child.splitOn '/' ↔
      parent = child ∨ isPathAncestor parent child = true := by
  rw [is_path_ancestor_iff]
  constructor
  · rintro ⟨tail, htail⟩
    have hchild : ['/'].intercalate (parent.splitOn '/' ++ tail) = child := by
      rw [htail, List.intercalate_splitOn]
    by_cases hempty : tail = []
    · left
      rw [hempty, List.append_nil, List.intercalate_splitOn] at hchild
      exact hchild
    · right
      rw [intercalate_append (List.splitOn_ne_nil _ _) hempty, List.intercalate_splitOn] at hchild
      exact ⟨_, hchild.symm⟩
  · rintro (rfl | ⟨rest, rfl⟩)
    · exact List.prefix_refl _
    · rw [List.splitOn_append_cons_self]
      exact List.prefix_append _ _

/-- Two paths clash on a disk that ignores case exactly when validation compares them as equal
or one as an ancestor of the other. -/
theorem clash_portable_iff {left right : String} :
    Clash (portableComponents left) (portableComponents right) ↔
      toAsciiLowercase left = toAsciiLowercase right ∨
      isPathAncestor (toAsciiLowercase left) (toAsciiLowercase right) = true ∨
      isPathAncestor (toAsciiLowercase right) (toAsciiLowercase left) = true := by
  rw [Clash, portable_components_eq, portable_components_eq, split_on_prefix_iff,
    split_on_prefix_iff, eq_comm (a := toAsciiLowercase right)]
  tauto

/-! ## What validation guarantees of a path -/

/-- A component that names an entry of the directory it is looked up in, and that every
supported filesystem can hold. -/
structure SafeComponent (name : List Char) : Prop where
  nonempty : name ≠ []
  not_dots : name ≠ ['.'] ∧ name ≠ ['.', '.']
  characters : ∀ c ∈ name, isPathCharacter c = true
  length : byteLength name ≤ 255
  last : name.getLast? ≠ some '.' ∧ name.getLast? ≠ some ' '
  not_device : isWindowsDeviceName name = false

/-- The path goes down from the model directory by safe components only. -/
def Contained (path : String) : Prop :=
  pathComponents path = (splitSlash path).map .normal ∧
    ∀ name ∈ splitSlash path, SafeComponent name

/-- A path whose components are safe is read as they are spelled. -/
theorem path_components_of_safe {path : String} (hroot : path.toList.head? ≠ some '/')
    (h : ∀ name ∈ splitSlash path, SafeComponent name) :
    pathComponents path = (splitSlash path).map .normal := by
  have hfirst : (splitSlash path).head? ≠ some ['.'] := by
    intro hhead
    exact (h _ (List.mem_of_mem_head? hhead)).not_dots.1 rfl
  have hmap : ∀ names : List (List Char), (∀ name ∈ names, SafeComponent name) →
      (names.filterMap fun part =>
        if part = [] ∨ part = ['.'] then none
        else if part = ['.', '.'] then some PathComponent.parentDir else some (.normal part)) =
      names.map .normal := by
    intro names hnames
    induction names with
    | nil => rfl
    | cons name rest ih =>
        obtain ⟨hname, hrest⟩ := List.forall_mem_cons.mp hnames
        have hskip : ¬(name = [] ∨ name = ['.']) := not_or.mpr ⟨hname.nonempty, hname.not_dots.1⟩
        rw [List.filterMap_cons, if_neg hskip, if_neg hname.not_dots.2, List.map_cons, ih hrest]
  rw [pathComponents, if_neg hroot, if_neg hfirst, List.nil_append]
  exact hmap _ h

/-- A path that `validate_relative_path` accepts stays inside the model directory. -/
theorem validate_relative_path_contained {path : String} (h : validateRelativePath path = .ok ()) :
    Contained path := by
  rw [validateRelativePath, reject_if_ok] at h
  simp only [Bool.or_eq_false_iff, List.any_eq_false, decide_eq_false_iff_not] at h
  obtain ⟨⟨⟨_, hroot⟩, _⟩, hcomponents⟩ := h
  have hsafe : ∀ name ∈ splitSlash path, SafeComponent name := by
    intro name hname
    have hchecks := hcomponents name hname
    simp only [Bool.or_eq_true, not_or, Bool.not_eq_true, decide_eq_true_eq, List.isEmpty_iff,
      Bool.not_eq_true', Bool.not_eq_false, Nat.not_lt] at hchecks
    obtain ⟨⟨⟨⟨⟨hne, hlength⟩, hdot⟩, hspace⟩, hall⟩, hdevice⟩ := hchecks
    refine ⟨hne, ⟨?_, ?_⟩, List.all_eq_true.mp hall, hlength, ⟨hdot, hspace⟩, hdevice⟩
    · rintro rfl
      exact hdot rfl
    · rintro rfl
      exact hdot rfl
  exact ⟨path_components_of_safe hroot hsafe, hsafe⟩

section

variable {ext : External}

/-- The artifacts that the loop of `validate_artifacts` accepts do not clash, neither with each
other nor with those before them. -/
theorem validate_artifacts_portable {paths after : List (List Char)} {artifacts : List Artifact}
    (h : artifacts.foldlM (validateArtifact ext) paths = .ok after) :
    (∀ artifact ∈ artifacts, artifact.Checked paths) ∧
    artifacts.Pairwise fun left right =>
      ¬ Clash (portableComponents left.path) (portableComponents right.path) := by
  induction artifacts generalizing paths with
  | nil => exact ⟨by simp, .nil⟩
  | cons artifact rest ih =>
      rw [List.foldlM_cons, Checked.bind_ok] at h
      obtain ⟨middle, hfirst, hrest⟩ := h
      obtain ⟨hchecked, rfl⟩ := validate_artifact_checked hfirst
      obtain ⟨hall, hpairs⟩ := ih hrest
      refine ⟨List.forall_mem_cons.mpr ⟨hchecked, fun other hother => ?_⟩,
        List.pairwise_cons.mpr ⟨fun other hother => ?_, hpairs⟩⟩
      · have hother := hall other hother
        refine ⟨hother.path, hother.not_reserved, fun hmem => hother.fresh ?_,
          fun existing hexisting => hother.unnested existing ?_, hother.digest_length⟩
        · exact List.mem_append_left _ hmem
        · exact List.mem_append_left _ hexisting
      · -- The path of the earlier artifact is one of those the later one was compared with.
        have hother := hall other hother
        have hmem : toAsciiLowercase artifact.path ∈ paths ++ [toAsciiLowercase artifact.path] :=
          List.mem_append_right _ List.mem_cons_self
        obtain ⟨hbelow, habove⟩ := hother.unnested _ hmem
        rw [clash_portable_iff, hbelow, habove]
        rintro (heq | hfalse | hfalse)
        · exact hother.fresh (heq ▸ hmem)
        · cases hfalse
        · cases hfalse

end

/-! ## Creating the files -/

/-- The files that the loop of `Installer::install_transaction` creates, in the order of a
list. -/
def createFiles (loc : Loc) : List RelPath → StoreM Unit
  | [] => pure ()
  | path :: rest => do
      createContainedParentDirectories loc path
      createNewContainedFile loc path
      createFiles loc rest

/-- All files of an installation: those of the list, and then the identity record. -/
def createLayout (loc : Loc) (paths : List RelPath) : StoreM Unit := do
  createFiles loc paths
  createNewContainedFile loc manifestFile

/-- What a directory holds at a path. -/
def directoryKind (d : Directory String) (path : RelPath) : Option FileKind :=
  if path ∈ d.files then some .file else if path ∈ d.dirs then some .dir else none

/-- The tree at a location has the files and directories of `d`, and nothing else. -/
structure Shows (loc : Loc) (d : Directory String) (s : Cache) : Prop where
  tree : ∃ tree, s.tree loc = some tree
  node : ∀ path, path ≠ [] → (s.node loc path).map Node.kind = directoryKind d path

namespace Shows

variable {loc : Loc} {d : Directory String} {s : Cache} {faults : Set Choice}

theorem top (h : Shows loc d s) : s.node loc [] = some .dir := by
  obtain ⟨tree, htree⟩ := h.tree
  rw [Cache.node_of_tree htree, if_pos rfl]

/-- Nothing in the tree is a link. -/
theorem kind_ne_link (h : Shows loc d s) {path : RelPath} {node : Node}
    (hnode : s.node loc path = some node) : node.kind ≠ .link := by
  by_cases hpath : path = []
  · subst hpath
    rw [h.top] at hnode
    cases hnode
    exact FileKind.noConfusion
  · have hkind := h.node path hpath
    rw [hnode, Option.map_some, directoryKind] at hkind
    split at hkind
    · simp [Option.some.inj hkind]
    · split at hkind
      · simp [Option.some.inj hkind]
      · cases hkind

/-- A directory of `d`, or the location itself, is a directory in the tree. -/
theorem node_dir (h : Shows loc d s) {path : RelPath}
    (hpath : path = [] ∨ path ∉ d.files ∧ path ∈ d.dirs) : s.node loc path = some .dir := by
  by_cases hempty : path = []
  · rw [hempty]
    exact h.top
  · obtain ⟨hfile, hdir⟩ := hpath.resolve_left hempty
    have hkind := h.node path hempty
    rw [directoryKind, if_neg hfile, if_pos hdir, Option.map_eq_some_iff] at hkind
    obtain ⟨node, hnode, hdir⟩ := hkind
    cases node with
    | dir => exact hnode
    | file | link | special => cases hdir

/-- A new node below an existing directory. -/
theorem add_node (h : Shows loc d s) (d' : Directory String) {path : RelPath} (node : Node)
    (hpath : path ≠ []) (hfree : directoryKind d path = none)
    (hparent : s.node loc path.dropLast = some .dir)
    (hkind : directoryKind d' path = some node.kind)
    (hother : ∀ other, other ≠ path → directoryKind d' other = directoryKind d other) :
    (s.addNode loc path node).1 = .ok () ∧ Shows loc d' (s.addNode loc path node).2 := by
  obtain ⟨tree, htree⟩ := h.tree
  have hnone : s.node loc path = none := by
    have := h.node path hpath
    rwa [hfree, Option.map_eq_none_iff] at this
  have hadd : s.addNode loc path node = (.ok (), s.setNode loc tree path node) := by
    simp only [Cache.addNode, htree, hnone, Option.isSome_none, Bool.false_eq_true, if_false,
      Cache.parentExists, hparent, decide_true, if_true]
  rw [hadd]
  refine ⟨rfl, ⟨_, Cache.tree_eq_some.mpr Cache.set_node_entry⟩, fun other hne => ?_⟩
  rw [Cache.set_node_node, if_neg hne]
  by_cases heq : other = path
  · rw [if_pos heq, heq, hkind, Option.map_some]
  · rw [if_neg heq, hother other heq, ← h.node other hne, Cache.node_of_tree htree, if_neg hne]

/-- Creating a directory, where one that exists is no error. -/
theorem ensure_directory_spec (hlucky : Lucky faults) (h : Shows loc d s) {path : RelPath}
    (hpath : path ≠ []) (hfile : path ∉ d.files)
    (hparent : s.node loc path.dropLast = some .dir) :
    Spec faults Free (ensureDirectory loc path)
      (fun result s' => result = .ok () ∧ Shows loc { d with dirs := path :: d.dirs } s') s := by
  refine spec_bind (spec_attempt (spec_fs trivial (absurd hlucky) (fun choice _ => ⟨trivial, ?_⟩)
    (absurd hlucky)))
  simp only [Cache.perform, Program.andThen]
  by_cases hdir : path ∈ d.dirs
  · obtain ⟨tree, htree⟩ := h.tree
    have hnode : s.node loc path = some .dir := h.node_dir (.inr ⟨hfile, hdir⟩)
    have hadd : s.addNode loc path .dir = (.error .alreadyExists, s) := by
      simp only [Cache.addNode, htree, hnode, Option.isSome_some, if_true]
    rw [hadd]
    refine spec_pure ⟨rfl, h.tree, fun other hne => ?_⟩
    rw [h.node other hne]
    simp only [directoryKind, List.mem_cons]
    by_cases heq : other = path
    · simp [heq, hdir]
    · simp [heq]
  · obtain ⟨hok, hshows⟩ := h.add_node { d with dirs := path :: d.dirs } .dir hpath
      (by rw [directoryKind, if_neg hfile, if_neg hdir]) hparent
      (by rw [directoryKind, if_neg hfile, if_pos List.mem_cons_self]; rfl)
      (fun other hne => by simp [directoryKind, hne])
    rw [hok]
    exact spec_pure ⟨rfl, hshows⟩

/-- Every path of a list is directly below the location or below a directory that is there
before its turn comes. -/
def Reachable (d : Directory String) : List RelPath → Prop
  | [] => True
  | path :: rest =>
      path ≠ [] ∧ (path.dropLast = [] ∨ path.dropLast ∉ d.files ∧ path.dropLast ∈ d.dirs) ∧
        Reachable { d with dirs := path :: d.dirs } rest

/-- The directories on the way to a path come in an order in which they can be created. -/
theorem reachable_below {base : RelPath} (hbase : base = [] ∨ base ∉ d.files ∧ base ∈ d.dirs)
    (path : RelPath) (hfree : ∀ middle ∈ path.inits.tail, base ++ middle ∉ d.files) :
    Reachable d (path.inits.tail.map (base ++ ·)) := by
  induction path generalizing base d with
  | nil => trivial
  | cons name rest ih =>
      have hinits : (name :: rest).inits.tail.map (base ++ ·) =
          (base ++ [name]) :: rest.inits.tail.map (base ++ [name] ++ ·) := by
        cases rest with
        | nil => simp
        | cons next rest => simp [List.append_assoc]
      have hmem : ∀ middle ∈ rest.inits, base ++ name :: middle ∉ d.files := by
        intro middle hmiddle
        apply hfree
        rw [List.inits_cons, List.tail_cons]
        exact List.mem_map_of_mem hmiddle
      have hname : base ++ [name] ∉ d.files := hmem [] ((List.mem_inits _ _).mpr List.nil_prefix)
      rw [hinits]
      refine ⟨by simp, ?_, ih (.inr ⟨hname, List.mem_cons_self⟩) fun middle hmiddle => ?_⟩
      · rw [List.dropLast_concat]
        exact hbase
      · rw [List.append_assoc]
        exact hmem middle (List.mem_of_mem_tail hmiddle)

/-- The loop of `securely_open_unix_parent` creates what `makeDirectories` does. -/
theorem open_directories_spec (hlucky : Lucky faults) {paths : List RelPath}
    (h : Shows loc d s) (hreach : Reachable d paths) {d' : Directory String}
    (hmake : d.makeDirectories paths = some d') :
    Spec faults Free (openDirectories loc paths)
      (fun result s' => result = .ok () ∧ Shows loc d' s') s := by
  induction paths generalizing d s with
  | nil =>
      cases hmake
      exact spec_pure ⟨rfl, h⟩
  | cons path rest ih =>
      obtain ⟨hne, hparent, hrest⟩ := hreach
      have hfile : path ∉ d.files :=
        (Directory.make_directories_eq_some_iff.mp hmake).1 path List.mem_cons_self
      rw [Directory.makeDirectories, if_neg hfile] at hmake
      refine spec_bind ((h.ensure_directory_spec hlucky hne hfile (h.node_dir hparent)).imp
        fun result a ha => ?_)
      obtain ⟨rfl, hshows⟩ := ha
      have hdir : a.node loc path = some .dir :=
        hshows.node_dir (.inr ⟨hfile, List.mem_cons_self⟩)
      refine spec_bind (spec_query (fun choice => ?_) trivial (absurd hlucky) fun choice => ?_)
      · simp only [Cache.perform, hdir]
      · simp only [Cache.perform, hdir]
        exact ih hshows hrest hmake

/-- `securely_open_unix_parent` creates the directories on the way. -/
theorem securely_open_parent_spec (hlucky : Lucky faults) (h : Shows loc d s) {path : RelPath}
    {d' : Directory String} (hmake : d.makeDirectories (parents path) = some d') :
    Spec faults Free (securelyOpenParent loc path)
      (fun result s' => result = .ok () ∧ Shows loc d' s') s := by
  refine spec_bind (spec_query (fun choice => ?_) trivial (absurd hlucky) fun choice => ?_)
  · simp only [Cache.perform, h.top]
  · simp only [Cache.perform, h.top]
    have hfree := (Directory.make_directories_eq_some_iff.mp hmake).1
    have hreach : Reachable d (path.dropLast.inits.tail.map ([] ++ ·)) :=
      reachable_below (.inl rfl) path.dropLast hfree
    rw [show path.dropLast.inits.tail.map ([] ++ ·) = parents path from List.map_id _] at hreach
    exact h.open_directories_spec hlucky hreach hmake

/-- No component of a path in the tree is a link. -/
theorem reject_reparse_components_spec (hlucky : Lucky faults)
    (h : Shows loc d s) (path : RelPath) :
    Spec faults Free (rejectReparseComponents loc path)
      (fun result s' => result = .ok () ∧ s' = s) s := by
  obtain ⟨tree, htree⟩ := h.tree
  have hentry := Cache.tree_eq_some.mp htree
  have hpaths : ∀ paths : List RelPath, Spec faults Free (rejectReparsePaths loc paths)
      (fun result s' => result = .ok () ∧ s' = s) s := by
    intro paths
    induction paths with
    | nil => exact spec_pure ⟨rfl, rfl⟩
    | cons path rest ih =>
        refine spec_bind (spec_query (fun _ => rfl) trivial (absurd hlucky) fun choice => ?_)
        simp only [Cache.perform, Except.mapError, Program.andThen]
        cases hnode : s.node loc path with
        | none => exact spec_pure ⟨rfl, rfl⟩
        | some node =>
            have hkind := h.kind_ne_link hnode
            simp only [Option.map_some]
            cases node with
            | link => exact absurd rfl hkind
            | dir | file | special => exact ih
  refine spec_bind (spec_bind (spec_query (fun _ => rfl) trivial (absurd hlucky) fun choice => ?_))
  simp only [Cache.perform, Except.mapError, Program.andThen, hentry]
  exact spec_pure (hpaths _)

/-- The metadata of a path that is there. -/
theorem path_metadata_spec (hlucky : Lucky faults) {path : RelPath} {node : Node}
    (hnode : s.node loc path = some node) :
    Spec faults Free (pathMetadata loc path)
      (fun result s' => result = .ok (node.kind, node.length) ∧ s' = s) s := by
  refine spec_bind (spec_query (fun _ => rfl) trivial (absurd hlucky) fun choice => ?_)
  simp only [Cache.perform, Except.mapError, Program.andThen, hnode, Option.map_some]
  exact spec_pure ⟨rfl, rfl⟩

/-- The directory of a path is there once the directories on the way are. -/
theorem node_drop_last {path : RelPath} {d' : Directory String} (h : Shows loc d' s)
    (hmake : d.makeDirectories (parents path) = some d') :
    s.node loc path.dropLast = some .dir := by
  obtain ⟨hfree, rfl⟩ := Directory.make_directories_eq_some_iff.mp hmake
  apply h.node_dir
  by_cases hempty : path.dropLast = []
  · exact .inl hempty
  · have hpos : 0 < path.length := by
      rw [List.length_pos_iff]
      rintro rfl
      exact hempty rfl
    have hparent : path.dropLast ∈ parents path := by
      rw [mem_parents]
      refine ⟨hempty, List.dropLast_prefix path, fun heq => ?_⟩
      have hlength := congrArg List.length heq
      rw [List.length_dropLast] at hlength
      omega
    exact .inr ⟨hfree _ hparent, List.mem_append_left _ (List.mem_reverse.mpr hparent)⟩

/-- `create_contained_parent_directories` creates the directories on the way. -/
theorem create_contained_parent_directories_spec (hlucky : Lucky faults) (h : Shows loc d s)
    {path : RelPath} {d' : Directory String}
    (hmake : d.makeDirectories (parents path) = some d') :
    Spec faults Free (createContainedParentDirectories loc path)
      (fun result s' => result = .ok () ∧ Shows loc d' s') s := by
  refine spec_bind ((h.securely_open_parent_spec hlucky hmake).imp fun result a ha => ?_)
  obtain ⟨rfl, hshows⟩ := ha
  refine spec_bind ((hshows.reject_reparse_components_spec hlucky _).imp fun result b hb => ?_)
  obtain ⟨rfl, rfl⟩ := hb
  refine spec_bind ((path_metadata_spec hlucky (hshows.node_drop_last hmake)).imp
    fun result b hb => ?_)
  obtain ⟨rfl, rfl⟩ := hb
  exact spec_fail_if (fun hbad => absurd rfl hbad) fun _ => ⟨rfl, hshows⟩

/-- `create_new_contained_file` places a file. -/
theorem create_new_contained_file_spec (hlucky : Lucky faults) (h : Shows loc d s) {path : RelPath}
    {d' : Directory String} (hplace : d.place path = some d') :
    Spec faults Free (createNewContainedFile loc path)
      (fun result s' => result = .ok () ∧ Shows loc d' s') s := by
  rw [Directory.place, Option.bind_eq_some_iff] at hplace
  obtain ⟨middle, hmake, hcreate⟩ := hplace
  obtain ⟨hguard, rfl⟩ := Directory.create_eq_some_iff.mp hcreate
  obtain ⟨hne, hfile, hdir⟩ := hguard
  refine spec_bind ((h.securely_open_parent_spec hlucky hmake).imp fun result a ha => ?_)
  obtain ⟨rfl, hshows⟩ := ha
  refine spec_bind (spec_fs trivial (absurd hlucky) (fun choice _ => ⟨trivial, ?_⟩)
    (absurd hlucky))
  obtain ⟨hok, hadded⟩ := hshows.add_node { middle with files := path :: middle.files } (.file [])
    hne (by rw [directoryKind, if_neg hfile, if_neg hdir]) (hshows.node_drop_last hmake)
    (by rw [directoryKind, if_pos List.mem_cons_self]; rfl)
    (fun other hother => by simp [directoryKind, hother])
  have hnode := (Cache.add_node_ok hok).2
  simp only [Cache.perform, hok]
  -- The new file is there under its name, so the checks after it pass.
  refine spec_bind ((path_metadata_spec hlucky hnode).imp fun result b hb => ?_)
  obtain ⟨rfl, rfl⟩ := hb
  refine spec_bind (spec_fail_if (fun hbad => absurd rfl hbad) fun _ => ?_)
  refine spec_bind ((hadded.reject_reparse_components_spec hlucky _).imp fun result b hb => ?_)
  obtain ⟨rfl, rfl⟩ := hb
  refine spec_bind ((path_metadata_spec hlucky hnode).imp fun result b hb => ?_)
  obtain ⟨rfl, rfl⟩ := hb
  exact spec_fail_if (fun hbad => absurd rfl hbad) fun _ => ⟨rfl, hadded⟩

/-- Directories on the way that exist already change nothing for the file. -/
theorem place_after_parents {path : RelPath} {middle d' : Directory String}
    (hmake : d.makeDirectories (parents path) = some middle) (hplace : d.place path = some d') :
    ∃ d'', middle.place path = some d'' ∧ ∀ other, directoryKind d'' other =
      directoryKind d' other := by
  rw [Directory.place, hmake, Option.bind_some] at hplace
  obtain ⟨hfree, rfl⟩ := Directory.make_directories_eq_some_iff.mp hmake
  obtain ⟨⟨hne, hfile, hdir⟩, rfl⟩ := Directory.create_eq_some_iff.mp hplace
  refine ⟨⟨path :: d.files, (parents path).reverse ++ ((parents path).reverse ++ d.dirs)⟩, ?_,
    fun other => ?_⟩
  · have hagain : (⟨d.files, (parents path).reverse ++ d.dirs⟩ : Directory String).makeDirectories
        (parents path) =
        some ⟨d.files, (parents path).reverse ++ ((parents path).reverse ++ d.dirs)⟩ :=
      Directory.make_directories_eq_some_iff.mpr ⟨hfree, rfl⟩
    rw [Directory.place, hagain, Option.bind_some, Directory.create_eq_some_iff]
    refine ⟨⟨hne, hfile, ?_⟩, rfl⟩
    rw [List.mem_append, not_or]
    exact ⟨fun hmem => hdir (List.mem_append_left _ hmem), hdir⟩
  · simp only [directoryKind, List.mem_append, or_self_left]

/-- Only the kinds of the entries matter. -/
theorem congr {d' : Directory String} (h : Shows loc d s)
    (hkind : ∀ path, directoryKind d path = directoryKind d' path) : Shows loc d' s :=
  ⟨h.tree, fun path hpath => (h.node path hpath).trans (hkind path)⟩

/-- Creating the files of a list places them. -/
theorem create_files_spec (hlucky : Lucky faults) {paths : List RelPath} (h : Shows loc d s)
    {d' : Directory String} (hplace : d.placeAll paths = some d') :
    Spec faults Free (createFiles loc paths)
      (fun result s' => result = .ok () ∧ Shows loc d' s') s := by
  induction paths generalizing d s with
  | nil =>
      cases hplace
      exact spec_pure ⟨rfl, h⟩
  | cons path rest ih =>
      rw [Directory.placeAll, Option.bind_eq_some_iff] at hplace
      obtain ⟨next, hfirst, hrest⟩ := hplace
      have hmake : ∃ middle, d.makeDirectories (parents path) = some middle := by
        rw [Directory.place, Option.bind_eq_some_iff] at hfirst
        obtain ⟨middle, hmake, _⟩ := hfirst
        exact ⟨middle, hmake⟩
      obtain ⟨middle, hmake⟩ := hmake
      obtain ⟨after, hafter, hsame⟩ := place_after_parents hmake hfirst
      refine spec_bind ((h.create_contained_parent_directories_spec hlucky hmake).imp
        fun result a ha => ?_)
      obtain ⟨rfl, hmiddle⟩ := ha
      refine spec_bind ((hmiddle.create_new_contained_file_spec hlucky hafter).imp
        fun result b hb => ?_)
      obtain ⟨rfl, hshows⟩ := hb
      exact ih (hshows.congr hsame) hrest

end Shows

/-- The files of an installation can be created in an empty directory that can hold them. -/
theorem create_layout_spec {faults : Set Choice} (hlucky : Lucky faults) {loc : Loc} {s : Cache}
    (h : Shows loc .empty s) {paths : List RelPath}
    (hplace : ((Directory.empty : Directory String).placeAll (paths ++ [manifestFile])).isSome) :
    Spec faults Free (createLayout loc paths) (fun result _ => result = .ok ()) s := by
  obtain ⟨d, hd⟩ := Option.isSome_iff_exists.mp hplace
  rw [Directory.place_all_append, Option.bind_eq_some_iff] at hd
  obtain ⟨middle, hpaths, hrecord⟩ := hd
  refine spec_bind ((h.create_files_spec hlucky hpaths).imp fun result a ha => ?_)
  obtain ⟨rfl, hshows⟩ := ha
  rw [Directory.placeAll, Option.bind_eq_some_iff] at hrecord
  obtain ⟨last, hlast, _⟩ := hrecord
  exact (hshows.create_new_contained_file_spec hlucky hlast).imp fun result b hb => hb.1

/-! ## Conflict-free layouts -/

/-- The name of the identity record. -/
def recordPath : String := "manifest.json"

/-- The path of a file below the model directory, component by component. -/
def relativePath (path : String) : RelPath :=
  (splitSlash path).map String.ofList

/-- The files that an installation writes. -/
def Manifest.installedPaths (manifest : Manifest) : List String :=
  manifest.artifacts.map Artifact.path ++ [recordPath]

/-- The names in a directory are told apart at least as well as in lower case: a filesystem may
keep the case of a name or ignore it. -/
def Distinguishes {β : Type} (name : String → β) : Prop :=
  ∀ left right, name left = name right → toAsciiLowercase left = toAsciiLowercase right

/-- The layout of a manifest is free of conflicts. -/
structure Manifest.ConflictFree (manifest : Manifest) : Prop where
  /-- No two files have the same path, ignoring case. -/
  distinct : manifest.installedPaths.Pairwise fun left right =>
    toAsciiLowercase left ≠ toAsciiLowercase right
  /-- No file is a directory on the way to another, ignoring case. -/
  unnested : ∀ left ∈ manifest.installedPaths, ∀ right ∈ manifest.installedPaths,
    isPathAncestor (toAsciiLowercase left) (toAsciiLowercase right) = false
  /-- Every file is inside the model directory. -/
  contained : ∀ path ∈ manifest.installedPaths, Contained path
  /-- An empty directory of either kind can take the artifacts in any order and then the
  record. -/
  placeable : ∀ order : List String, order.Perm (manifest.artifacts.map Artifact.path) →
    ∀ {β : Type} [DecidableEq β] (name : String → β), Distinguishes name →
      ((Directory.empty : Directory β).placeAll
        ((order ++ [recordPath]).map fun path => (relativePath path).map name)).isSome
  /-- The code creates the artifacts in any order and then the record when no primitive fails. -/
  created : ∀ order : List String, order.Perm (manifest.artifacts.map Artifact.path) →
    ∀ (faults : Set Choice) (loc : Loc) (s : Cache) (tree : Tree), Lucky faults →
      s.tree loc = some tree → tree.entries = ∅ →
      Spec faults Free (createLayout loc (order.map relativePath))
        (fun result _ => result = .ok ()) s

/-- The identity record does not lie on the way to an artifact, ignoring case. -/
def Manifest.SparesRecord (manifest : Manifest) : Prop :=
  ∀ artifact ∈ manifest.artifacts,
    isPathAncestor recordPath.toList (toAsciiLowercase artifact.path) = false

instance (manifest : Manifest) : Decidable manifest.SparesRecord :=
  inferInstanceAs (Decidable (∀ artifact ∈ manifest.artifacts, _))

section

variable {ext : External} {manifest : Manifest}

/-- The paths of an accepted manifest that spares the record do not clash on a disk that
ignores case. -/
theorem Manifest.installed_paths_pairwise (h : manifest.validate ext = .ok ())
    (hspares : manifest.SparesRecord) :
    manifest.installedPaths.Pairwise fun left right =>
      ¬ Clash (portableComponents left) (portableComponents right) := by
  obtain ⟨after, hfold⟩ := Manifest.validate_artifacts h
  obtain ⟨hall, hpairs⟩ := validate_artifacts_portable hfold
  rw [Manifest.installedPaths, List.pairwise_append]
  refine ⟨List.pairwise_map.mpr hpairs, List.pairwise_singleton _ _, ?_⟩
  intro path hpath record hrecord
  obtain ⟨artifact, hartifact, rfl⟩ := List.mem_map.mp hpath
  rw [List.mem_singleton] at hrecord
  subst hrecord
  have hlower : toAsciiLowercase recordPath = recordPath.toList := by decide
  rw [clash_portable_iff, hlower, hspares artifact hartifact]
  rintro (heq | hbelow | hfalse)
  · exact (hall artifact hartifact).not_reserved heq
  · -- A path through an artifact has a slash, which the record's name has not.
    obtain ⟨rest, hrest⟩ := is_path_ancestor_iff.mp hbelow
    have hslash : '/' ∈ recordPath.toList := by
      rw [hrest]
      simp
    exact absurd hslash (by decide)
  · cases hfalse

/-- Every path of an accepted manifest stays inside the model directory. -/
theorem Manifest.installed_paths_contained (h : manifest.validate ext = .ok ()) :
    ∀ path ∈ manifest.installedPaths, Contained path := by
  obtain ⟨after, hfold⟩ := Manifest.validate_artifacts h
  obtain ⟨hall, _⟩ := validate_artifacts_portable hfold
  intro path hpath
  rw [Manifest.installedPaths, List.mem_append, List.mem_singleton] at hpath
  cases hpath with
  | inl hmem =>
      obtain ⟨artifact, hartifact, rfl⟩ := List.mem_map.mp hmem
      exact validate_relative_path_contained (hall artifact hartifact).path
  | inr hrecord =>
      subst hrecord
      exact validate_relative_path_contained (by decide)

/-- The order of the artifacts does not matter for clashes. -/
theorem Manifest.order_pairwise (h : manifest.validate ext = .ok ())
    (hspares : manifest.SparesRecord) {order : List String}
    (horder : order.Perm (manifest.artifacts.map Artifact.path)) :
    (order ++ [recordPath]).Pairwise fun left right =>
      ¬ Clash (portableComponents left) (portableComponents right) := by
  have hperm : (order ++ [recordPath]).Perm manifest.installedPaths :=
    horder.append_right [recordPath]
  refine (hperm.pairwise_iff ?_).mpr (Manifest.installed_paths_pairwise h hspares)
  intro left right hclash hback
  exact hclash hback.symm

/-- The components that a directory compares clash only if the portable ones do. -/
theorem clash_portable_of_clash {β : Type} {name : String → β} (hname : Distinguishes name)
    {left right : String}
    (h : Clash ((relativePath left).map name) ((relativePath right).map name)) :
    Clash (portableComponents left) (portableComponents right) := by
  have hlower := Clash.of_map hname h
  have hcomponents : ∀ path, (relativePath path).map toAsciiLowercase =
    portableComponents path := by
    intro path
    rw [relativePath, List.map_map, portableComponents]
    apply List.map_congr_left
    intro component _
    simp [toAsciiLowercase]
  rwa [hcomponents, hcomponents] at hlower

/-- An empty directory can take the files in any order. -/
theorem Manifest.order_placeable (h : manifest.validate ext = .ok ())
    (hspares : manifest.SparesRecord) {order : List String}
    (horder : order.Perm (manifest.artifacts.map Artifact.path)) {β : Type} [DecidableEq β]
    {name : String → β} (hname : Distinguishes name) :
    ((Directory.empty : Directory β).placeAll
      ((order ++ [recordPath]).map fun path => (relativePath path).map name)).isSome := by
  rw [Directory.place_all_is_some_iff]
  constructor
  · rw [List.mem_map]
    rintro ⟨path, _, hpath⟩
    rw [relativePath, List.map_map, List.map_eq_nil_iff] at hpath
    exact List.splitOn_ne_nil _ _ hpath
  · rw [List.pairwise_map]
    refine (Manifest.order_pairwise h hspares horder).imp fun hclash hback => ?_
    exact hclash (clash_portable_of_clash hname hback)

/-- Paths that are pairwise unnested are unnested both ways. -/
theorem unnested_of_pairwise {paths : List String}
    (h : paths.Pairwise fun left right =>
      isPathAncestor (toAsciiLowercase left) (toAsciiLowercase right) = false ∧
      isPathAncestor (toAsciiLowercase right) (toAsciiLowercase left) = false) :
    ∀ left ∈ paths, ∀ right ∈ paths,
      isPathAncestor (toAsciiLowercase left) (toAsciiLowercase right) = false := by
  intro left hleft right hright
  refine (h.forall_of_forall_of_flip ?_ (h.imp fun hpair => ⟨hpair.2, hpair.1⟩) hleft hright).1
  -- A path is longer than its ancestors, so it is none of its own.
  intro path _
  have hself : isPathAncestor (toAsciiLowercase path) (toAsciiLowercase path) = false := by
    rw [← Bool.not_eq_true, is_path_ancestor_iff]
    rintro ⟨rest, hrest⟩
    have hlength := congrArg List.length hrest
    rw [List.length_append, List.length_cons] at hlength
    omega
  exact ⟨hself, hself⟩

/-- A filesystem that keeps case. -/
theorem distinguishes_id : Distinguishes (id : String → String) := by
  intro left right heq
  rw [show left = right from heq]

/-- The tree of a new staging directory. -/
theorem shows_empty {loc : Loc} {s : Cache} {tree : Tree} (htree : s.tree loc = some tree)
    (hempty : tree.entries = ∅) : Shows loc .empty s := by
  refine ⟨⟨tree, htree⟩, fun path hpath => ?_⟩
  rw [Cache.node_of_tree htree, if_neg hpath, hempty, AList.lookup_empty]
  rfl

/-- The layout of an accepted manifest is free of conflicts exactly when no artifact lies below
a directory named like the identity record. -/
theorem Manifest.conflict_free_iff (ext : External) (manifest : Manifest)
    (h : manifest.validate ext = .ok ()) : manifest.ConflictFree ↔ manifest.SparesRecord := by
  constructor
  · intro hfree artifact hartifact
    have hrecord : recordPath ∈ manifest.installedPaths :=
      List.mem_append_right _ List.mem_cons_self
    have hpath : artifact.path ∈ manifest.installedPaths :=
      List.mem_append_left _ (List.mem_map_of_mem hartifact)
    exact hfree.unnested recordPath hrecord artifact.path hpath
  · intro hspares
    have hpairs := Manifest.installed_paths_pairwise h hspares
    refine ⟨?_, ?_, Manifest.installed_paths_contained h, ?_, ?_⟩
    · refine hpairs.imp fun hclash heq => hclash ?_
      exact clash_portable_iff.mpr (.inl heq)
    · apply unnested_of_pairwise
      refine hpairs.imp fun hclash => ?_
      simp only [clash_portable_iff, not_or, Bool.not_eq_true] at hclash
      exact hclash.2
    · intro order horder β _ name hname
      exact Manifest.order_placeable h hspares horder hname
    · intro order horder faults loc s tree hlucky htree hempty
      have hplaced := Manifest.order_placeable h hspares horder distinguishes_id
      simp only [List.map_id, List.map_append, List.map_cons, List.map_nil] at hplaced
      have hrecord : relativePath recordPath = manifestFile := by decide
      rw [hrecord] at hplaced
      exact create_layout_spec hlucky (shows_empty htree hempty) hplaced

/-- The manifest of the tests with an artifact below a directory named like the record. -/
def Manifest.belowRecord : Manifest :=
  { Manifest.fixture with
    artifacts := Manifest.fixture.artifacts.map fun artifact =>
      { artifact with path := "Manifest.json/model.bin" } }

/-- Such a manifest is accepted, and its artifact takes the place of the record. -/
theorem Manifest.record_below_artifact :
    Manifest.belowRecord.validate (.fixture []) = .ok () ∧ ¬ Manifest.belowRecord.ConflictFree := by
  refine ⟨by decide +kernel, fun hfree => ?_⟩
  have hrecord := hfree.unnested recordPath (by decide) "Manifest.json/model.bin" (by decide)
  exact absurd hrecord (by decide)

/-- The layout of the manifest of the tests has no conflict. -/
theorem Manifest.conflict_free_fixture :
    Manifest.fixture.validate (.fixture []) = .ok () ∧ Manifest.fixture.ConflictFree := by
  have hvalid : Manifest.fixture.validate (.fixture []) = .ok () := Manifest.validate_fixture rfl
  exact ⟨hvalid, (Manifest.conflict_free_iff (.fixture []) Manifest.fixture hvalid).mpr (by decide)⟩

end

end EmbeddingServer
