import EmbeddingServer.Models.StoreSteps

/-!
# What a staged tree holds

The functional side of staging: code that only creates new files and directories keeps what
is there, each artifact that was copied or downloaded without an error has its declared
length and digest, and a staged tree that reaches its promotion holds every declared
artifact and the encoded manifest.
-/

namespace EmbeddingServer

/-- Everything below a location is still there as it was. -/
def Kept (loc : Loc) (s s' : Cache) : Prop :=
  ∀ path node, s.node loc path = some node → s'.node loc path = some node

theorem Kept.refl (loc : Loc) (s : Cache) : Kept loc s s := fun _ _ h => h

theorem Kept.trans {loc : Loc} {a b c : Cache} (hab : Kept loc a b) (hbc : Kept loc b c) :
    Kept loc a c :=
  fun path node h => hbc path node (hab path node h)

namespace Cache

theorem tree_eq_some {s : Cache} {loc : Loc} {tree : Tree} :
    s.tree loc = some tree ↔ s.entry loc = some (.dir tree) := by
  simp only [Cache.tree]
  rcases s.entry loc with _ | ⟨other⟩ | _ | _ | _ <;> simp

theorem node_of_tree {s : Cache} {loc : Loc} {tree : Tree} (h : s.tree loc = some tree)
    (path : RelPath) :
    s.node loc path = if path = [] then some .dir else tree.entries.lookup path := by
  simp [Cache.node, h]

/-- What stands below a location after a node was put there. -/
theorem set_node_node {s : Cache} {loc : Loc} {tree : Tree} {path : RelPath} {node : Node}
    (other : RelPath) :
    (s.setNode loc tree path node).node loc other =
      if other = [] then some .dir
      else if other = path then some node else tree.entries.lookup other := by
  rw [node_of_tree (tree_eq_some.mpr set_node_entry)]
  by_cases hroot : other = []
  · simp [hroot]
  · by_cases heq : other = path
    · subst heq
      simp [hroot, AList.lookup_insert]
    · simp [hroot, heq, AList.lookup_insert_ne heq]

/-- A new node is put at a free path. -/
theorem add_node_kept (s : Cache) (loc : Loc) (path : RelPath) (node : Node) :
    Kept loc s (s.addNode loc path node).2 := by
  unfold addNode
  split
  · exact .refl loc s
  · rename_i tree htree
    split
    · exact .refl loc s
    · rename_i hfree
      split
      · intro other found hfound
        rw [set_node_node, ← hfound, node_of_tree htree]
        by_cases heq : other = path
        · subst heq
          simp [hfound] at hfree
        · simp [heq]
      · exact .refl loc s

/-- A node that was added is there, and its path was free. -/
theorem add_node_ok {s : Cache} {loc : Loc} {path : RelPath} {node : Node}
    (h : (s.addNode loc path node).1 = .ok ()) :
    s.node loc path = none ∧ (s.addNode loc path node).2.node loc path = some node := by
  unfold addNode at h ⊢
  cases htree : s.tree loc with
  | none => simp [htree] at h
  | some tree =>
      simp only [htree] at h ⊢
      by_cases hsome : (s.node loc path).isSome
      · simp [hsome] at h
      · simp only [hsome] at h ⊢
        by_cases hparent : s.parentExists loc path = true
        · simp only [hparent, if_true] at h ⊢
          refine ⟨by simpa using hsome, ?_⟩
          have hroot : path ≠ [] := by
            rintro rfl
            simp [node_of_tree htree] at hsome
          simp [set_node_node, hroot]
        · simp [hparent] at h

end Cache

theorem respond_kept {loc : Loc} {op : FsOp} (h : op.Builds loc) (choice : Choice) (s : Cache) :
    Kept loc s (respond choice s op).2 := by
  refine respond_state (.refl loc s) ?_
  cases op with
  | append | unlink | removeDir | createDir | rename | createMarker | syncMarker | removeMarker
  | quarantineCandidate | openLock | tryLock | unlock | markerMetadata => exact h.elim
  | makeDir l path =>
      cases h
      exact Cache.add_node_kept s loc path _
  | createFile l path =>
      cases h
      exact Cache.add_node_kept s loc path _
  | syncDir l | syncEntry l path =>
      simp only [Cache.perform]
      split <;> exact .refl loc s
  | listRemoval l =>
      simp only [Cache.perform]
      split
      · split <;> exact .refl loc s
      · exact .refl loc s
  | readTree l | openDir l path | openFile l path | read l path offset limit =>
      simp only [Cache.perform]
      split <;> exact .refl loc s
  | observe | metadata | createRoot | syncRoot | fileMetadata | poll | inspectSource | openSource
  | readSource | beginCommit | httpGet | httpChunk => exact .refl loc s

section Staging

variable {faults : Set Choice} {loc : Loc} {α : Type} {store : ModelStore}

/-- Code without promises about its steps. -/
abbrev Free : Cache → Cache → Prop := fun _ _ => True

theorem Only.spec_kept {body : StoreM α} (h : Only (FsOp.Builds loc) body) (s : Cache) :
    Spec faults Free body (fun _ s' => Kept loc s s') s := by
  refine Program.wp_of_all h (fun _ _ heq hinv => heq ▸ hinv) ?_ (.refl loc s)
  intro op hop choice _ a ha
  exact ⟨trivial, ha.trans (respond_kept hop choice a)⟩

/-- Code that builds and whose successful result is followed by more code. -/
theorem Only.spec_then {body : StoreM α} {post : Except Error α → Cache → Prop} {s : Cache}
    (h : Only (FsOp.Builds loc) body) (hpost : ∀ result s', Kept loc s s' → post result s') :
    Spec faults Free body post s :=
  (h.spec_kept s).imp hpost

/-- A file with this content stands at a path. -/
def HasFile (loc : Loc) (path : RelPath) (bytes : List UInt8) (s : Cache) : Prop :=
  s.node loc path = some (.file bytes)

/-- All but one path below a location is still there as it was. -/
def KeptExcept (loc : Loc) (path : RelPath) (s s' : Cache) : Prop :=
  ∀ other node, other ≠ path → s.node loc other = some node → s'.node loc other = some node

/-- A new file is empty, and nothing stood at its path. -/
theorem create_new_contained_file_spec (path : RelPath) (s : Cache) :
    Spec faults Free (createNewContainedFile loc path)
      (fun result s' => result = .ok () →
        s.node loc path = none ∧ Kept loc s s' ∧ HasFile loc path [] s') s := by
  refine spec_bind ((securely_open_parent_only (List.Subset.refl _)).builds.spec_then
    fun result a ha => ?_)
  cases result with
  | error error => simp [Program.andThen]
  | ok =>
      refine spec_bind (spec_fs trivial (fun _ => by simp [Program.andThen]) ?_
        fun _ choice _ => by simp [Program.andThen])
      intro choice _
      refine ⟨trivial, ?_⟩
      simp only [Cache.perform]
      cases hadd : (a.addNode loc path (.file [])).1 with
      | error error => simp [Program.andThen, Except.mapError]
      | ok =>
          obtain ⟨hfree, hfile⟩ := Cache.add_node_ok hadd
          have hrest : Only (FsOp.Builds loc) (do
              let metadata ← pathMetadata loc path
              failIf (metadata.1 ≠ .file) (.invalid "cache leaf is not a regular non-reparse file")
              revalidateContainedPath loc path) := by
            refine only_bind (only_path_metadata rfl) fun _ => ?_
            exact only_bind (only_fail_if _ _) fun _ => revalidate_contained_path_only _
          refine hrest.spec_then fun result b hb _ => ⟨?_, ?_, hb _ _ hfile⟩
          · by_contra hsome
            obtain ⟨node, hnode⟩ := Option.ne_none_iff_exists'.mp hsome
            simp [ha _ _ hnode] at hfree
          · exact ha.trans (Kept.trans (Cache.add_node_kept a loc path _) hb)

/-- A successful write appends to the file and touches no other path. -/
theorem append_spec {path : RelPath} {bytes chunk : List UInt8} {s : Cache}
    (h : HasFile loc path bytes s) :
    Spec faults Free (fs (.append loc path chunk))
      (fun result s' => result = .ok () →
        HasFile loc path (bytes ++ chunk) s' ∧ KeptExcept loc path s s') s := by
  refine spec_fs trivial (fun _ => by simp) (fun choice _ => ⟨trivial, ?_⟩)
    fun _ choice _ => by simp
  simp only [Cache.perform]
  obtain ⟨tree, htree⟩ : ∃ tree, s.tree loc = some tree := by
    cases htree : s.tree loc with
    | none => simp [HasFile, Cache.node, htree] at h
    | some tree => exact ⟨tree, rfl⟩
  have hroot : path ≠ [] := by
    rintro rfl
    simp [HasFile, Cache.node_of_tree htree] at h
  unfold HasFile at h ⊢
  simp only [htree, h]
  refine fun _ => ⟨by simp [Cache.set_node_node, hroot], fun other node hother hnode => ?_⟩
  rw [Cache.set_node_node, ← hnode, Cache.node_of_tree htree]
  simp [hother]

/-- What was written to a new file in several pieces. -/
def Wrote (loc : Loc) (path : RelPath) (s : Cache) (result : Except Error (List UInt8))
    (s' : Cache) : Prop :=
  ∀ written, result = .ok written → HasFile loc path written s' ∧ KeptExcept loc path s s'

theorem Wrote.error {path : RelPath} {s s' : Cache} {error : Error} :
    Wrote loc path s (.error error) s' := by
  simp [Wrote]

theorem Wrote.before {path : RelPath} {a b s' : Cache} {result : Except Error (List UInt8)}
    (hab : KeptExcept loc path a b) (h : Wrote loc path b result s') :
    Wrote loc path a result s' := by
  intro written hwritten
  obtain ⟨hfile, hkept⟩ := h written hwritten
  exact ⟨hfile, fun other node hother hnode =>
    hkept other node hother (hab other node hother hnode)⟩

theorem Wrote.done {path : RelPath} {bytes : List UInt8} {s : Cache}
    (h : HasFile loc path bytes s) : Wrote loc path s (.ok bytes) s := by
  rintro written ⟨rfl⟩
  exact ⟨h, fun _ _ _ hnode => hnode⟩

/-- The copied bytes are the content of the file. -/
theorem copy_loop_spec {path : RelPath} {size : Nat} (fuel : Nat) {bytes : List UInt8} {s : Cache}
    (h : HasFile loc path bytes s) :
    Spec faults Free (copyLoop loc path size fuel bytes) (Wrote loc path s) s := by
  induction fuel generalizing bytes s with
  | zero => exact spec_throw .error
  | succ fuel ih =>
      refine spec_bind (spec_query (fun _ => rfl) trivial (fun _ => .error) fun choice => ?_)
      simp only [Cache.perform, Except.mapError, Program.andThen]
      split
      · exact spec_pure (.done h)
      · split
        · exact spec_throw .error
        · refine spec_bind ((append_spec h).imp fun result a ha => ?_)
          cases result with
          | error error => exact .error
          | ok =>
              obtain ⟨hfile, hkept⟩ := ha rfl
              exact (ih hfile).imp fun _ _ hwrote => hwrote.before hkept

/-- The received bytes are the content of the file. -/
theorem receive_body_spec {installer : Installer} {path : RelPath} {size : Nat} (fuel : Nat)
    {received : List UInt8} {s : Cache} (h : HasFile loc path received s) :
    Spec faults Free (receiveBody installer loc path size fuel received) (Wrote loc path s) s := by
  induction fuel generalizing received s with
  | zero => exact spec_throw .error
  | succ fuel ih =>
      refine spec_bind (spec_bind (spec_query (fun _ => rfl) trivial (fun _ => .error)
        fun choice => ?_))
      refine spec_fail_if (fun _ => .error) fun _ => ?_
      refine spec_bind (spec_query (fun _ => rfl) trivial (fun _ => .error) fun choice => ?_)
      simp only [Cache.perform, Except.mapError, Program.andThen]
      split
      · exact spec_throw .error
      · exact spec_pure (.done h)
      · split
        · exact spec_throw .error
        · refine spec_bind ((append_spec h).imp fun result a ha => ?_)
          cases result with
          | error error => exact .error
          | ok =>
              obtain ⟨hfile, hkept⟩ := ha rfl
              exact (ih hfile).imp fun _ _ hwrote => hwrote.before hkept

end Staging

/-- An artifact stands below a location with its declared length and digest. -/
def HasArtifact (ext : External) (loc : Loc) (artifact : Artifact) (s : Cache) : Prop :=
  ∃ bytes, HasFile loc artifact.relative bytes s ∧ bytes.length = artifact.size.toNat ∧
    ext.sha256 bytes = artifact.sha256

/-- The result of staging one artifact. -/
def Staged (ext : External) (loc : Loc) (artifacts : List Artifact) (s : Cache)
    (result : Except Error Unit) (s' : Cache) : Prop :=
  result = .ok () → Kept loc s s' ∧ ∀ artifact ∈ artifacts, HasArtifact ext loc artifact s'

theorem Staged.error {ext : External} {loc : Loc} {artifacts : List Artifact} {s s' : Cache}
    {error : Error} : Staged ext loc artifacts s (.error error) s' := by
  simp [Staged]

theorem HasArtifact.kept {ext : External} {loc : Loc} {artifact : Artifact} {s s' : Cache}
    (h : HasArtifact ext loc artifact s) (hkept : Kept loc s s') :
    HasArtifact ext loc artifact s' := by
  obtain ⟨bytes, hfile, hrest⟩ := h
  exact ⟨bytes, hkept _ _ hfile, hrest⟩

/-- Nothing stood at the path of a new file, so writing to it keeps everything else. -/
theorem KeptExcept.kept {loc : Loc} {path : RelPath} {a b c : Cache}
    (hfree : a.node loc path = none)
    (hab : Kept loc a b) (hbc : KeptExcept loc path b c) : Kept loc a c := by
  intro other node hnode
  refine hbc other node ?_ (hab other node hnode)
  rintro rfl
  simp [hfree] at hnode

section Artifacts

variable {faults : Set Choice} {loc : Loc} {store : ModelStore} {installer : Installer} {α : Type}

/-- Nothing is asked of the code. -/
theorem spec_free (body : StoreM α) (s : Cache) :
    Spec faults Free body (fun _ _ => True) s :=
  Program.wp_of_all (Program.all_of_forall body.run fun _ => trivial) (fun _ _ _ h => h)
    (fun _ (_ : True) _ _ _ _ => ⟨trivial, trivial⟩) trivial

theorem stable_import_destination_error_spec {path : RelPath} {body : StoreM α}
    {post : α → Cache → Prop} {s : Cache}
    (h : Spec faults Free body (fun result s' => ∀ value, result = .ok value → post value s') s) :
    Spec faults Free (stableImportDestinationError loc path body)
      (fun result s' => ∀ value, result = .ok value → post value s') s := by
  refine spec_bind (spec_attempt (h.imp fun result a ha => ?_))
  cases result with
  | ok value => exact spec_pure ha
  | error error =>
      refine spec_bind (spec_attempt ((spec_free _ a).imp fun result b _ => ?_))
      simp only [Program.andThen]
      split <;> exact spec_throw (by simp)

/-- The part of staging an artifact that writes it: whatever the pieces come from, the file ends
up with the given length and digest or the code fails. -/
theorem HasArtifact.written {ext : External} {artifact : Artifact} {bytes : List UInt8} {s : Cache}
    (hfile : HasFile loc artifact.relative bytes s) (hsize : ¬ bytes.length ≠ artifact.size.toNat)
    (hdigest : ¬ ext.sha256 bytes ≠ artifact.sha256) : HasArtifact ext loc artifact s :=
  ⟨bytes, hfile, not_not.mp hsize, not_not.mp hdigest⟩

theorem copy_import_artifact_spec (artifact : Artifact) (s : Cache) :
    Spec faults Free (copyImportArtifact store loc artifact)
      (Staged store.ext loc [artifact] s) s := by
  refine spec_bind (spec_query (fun _ => rfl) trivial (fun _ => .error) fun choice => ?_)
  refine spec_bind (spec_fail_if (fun _ => .error) fun _ => ?_)
  refine spec_bind (spec_fail_if (fun _ => .error) fun _ => ?_)
  have hcreate : Spec faults Free
      (stableImportDestinationError loc artifact.relative
        (createNewContainedFile loc artifact.relative))
      (fun result s' => ∀ value, result = .ok value → s.node loc artifact.relative = none ∧
        Kept loc s s' ∧ HasFile loc artifact.relative [] s') s :=
    stable_import_destination_error_spec ((create_new_contained_file_spec _ s).imp fun _ _ h _ => h)
  refine spec_bind (hcreate.imp fun result a ha => ?_)
  cases result with
  | error error => exact .error
  | ok =>
      obtain ⟨hfree, hkept, hempty⟩ := ha () rfl
      refine spec_bind ((copy_loop_spec _ hempty).imp fun result b hb => ?_)
      cases result with
      | error error => exact .error
      | ok copied =>
          obtain ⟨hfile, hexcept⟩ := hb copied rfl
          have hbuild : Only (FsOp.Builds loc) (fs (.syncEntry loc artifact.relative)) :=
            only_fs rfl
          refine spec_bind (hbuild.spec_then fun result c hc => ?_)
          cases result with
          | error error => exact .error
          | ok =>
              refine spec_bind (spec_fail_if (fun _ => .error) fun hsize => ?_)
              refine spec_bind (spec_fail_if (fun _ => .error) fun hdigest => ?_)
              refine (reread_staged_only artifact).spec_then fun result d hd _ => ⟨?_, ?_⟩
              · exact ((hexcept.kept hfree hkept).trans hc).trans hd
              · simp only [List.mem_singleton, forall_eq]
                exact .written (hd _ _ (hc _ _ hfile)) hsize hdigest

/-- Staging one artifact, then the others. -/
theorem Staged.cons {ext : External} {artifact : Artifact} {rest : List Artifact} {a b c : Cache}
    {result : Except Error Unit} (hab : Staged ext loc [artifact] a (.ok ()) b)
    (hbc : Staged ext loc rest b result c) : Staged ext loc (artifact :: rest) a result c := by
  intro hok
  obtain ⟨hkept, hfirst⟩ := hab rfl
  obtain ⟨hkept', hrest⟩ := hbc hok
  refine ⟨hkept.trans hkept', fun other hother => ?_⟩
  rcases List.mem_cons.mp hother with rfl | hmem
  · exact (hfirst other (by simp)).kept hkept'
  · exact hrest other hmem

/-- Code before an artifact is staged that keeps what is there. -/
theorem Staged.before {ext : External} {artifacts : List Artifact} {a b c : Cache}
    {result : Except Error Unit} (hab : Kept loc a b) (hbc : Staged ext loc artifacts b result c) :
    Staged ext loc artifacts a result c := by
  intro hok
  obtain ⟨hkept, hrest⟩ := hbc hok
  exact ⟨hab.trans hkept, hrest⟩

theorem import_artifact_spec (artifact : Artifact) (s : Cache) :
    Spec faults Free (importArtifact store loc artifact)
      (Staged store.ext loc [artifact] s) s := by
  have hparents : Only (FsOp.Builds loc) (stableImportDestinationError loc artifact.relative
      (createContainedParentDirectories loc artifact.relative)) :=
    stable_import_destination_error_only (create_contained_parent_directories_only _)
  refine spec_bind ((@inspect_source_only loc _).spec_then fun result a ha => ?_)
  cases result with
  | error error => exact .error
  | ok =>
      refine spec_bind (hparents.spec_then fun result b hb => ?_)
      cases result with
      | error error => exact .error
      | ok =>
          exact (copy_import_artifact_spec artifact b).imp fun _ _ h => .before (ha.trans hb) h

theorem import_artifacts_spec (artifacts : List Artifact) (s : Cache) :
    Spec faults Free (importArtifacts store loc artifacts)
      (Staged store.ext loc artifacts s) s := by
  induction artifacts generalizing s with
  | nil => exact spec_pure fun _ => ⟨.refl loc s, by simp⟩
  | cons artifact rest ih =>
      refine spec_bind ((import_artifact_spec artifact s).imp fun result a ha => ?_)
      cases result with
      | error error => exact .error
      | ok => exact (ih a).imp fun _ _ h => ha.cons h

theorem store_body_spec (artifact : Artifact) (s : Cache) :
    Spec faults Free (storeBody installer loc artifact)
      (Staged installer.store.ext loc [artifact] s) s := by
  refine spec_bind ((create_new_contained_file_spec _ s).imp fun result a ha => ?_)
  cases result with
  | error error => exact .error
  | ok =>
      obtain ⟨hfree, hkept, hempty⟩ := ha rfl
      refine spec_bind ((receive_body_spec _ hempty).imp fun result b hb => ?_)
      cases result with
      | error error => exact .error
      | ok received =>
          obtain ⟨hfile, hexcept⟩ := hb received rfl
          have hsync : Only (FsOp.Builds loc) (fs (.syncEntry loc artifact.relative)) := only_fs rfl
          refine spec_bind (hsync.spec_then fun result c hc => ?_)
          cases result with
          | error error => exact .error
          | ok =>
              have hmeta : Only (FsOp.Builds loc) (pathMetadata loc artifact.relative) :=
                only_path_metadata rfl
              refine spec_bind (hmeta.spec_then fun result d hd => ?_)
              cases result with
              | error error => exact .error
              | ok metadata =>
                  refine spec_bind (spec_fail_if (fun _ => .error) fun hsize => ?_)
                  refine spec_bind (spec_fail_if (fun _ => .error) fun hdigest => ?_)
                  refine spec_bind (spec_fail_if (fun _ => .error) fun _ => ?_)
                  refine (revalidate_contained_path_only _).spec_then fun result e he _ => ⟨?_, ?_⟩
                  · exact (((hexcept.kept hfree hkept).trans hc).trans hd).trans he
                  · simp only [List.mem_singleton, forall_eq]
                    exact .written (he _ _ (hd _ _ (hc _ _ hfile))) hsize hdigest

theorem download_spec (artifact : Artifact) (s : Cache) :
    Spec faults Free (download installer loc artifact)
      (Staged installer.store.ext loc [artifact] s) s := by
  unfold download
  split
  · exact spec_throw .error
  · refine spec_bind ((@follow_redirects_only loc _ _ _).spec_then fun result a ha => ?_)
    cases result with
    | error error => exact .error
    | ok response =>
        refine spec_bind (spec_lift ?_)
        cases validateContentLength response artifact.size.toNat with
        | error error => exact .error
        | ok => exact (store_body_spec artifact a).imp fun _ _ h => .before ha h

theorem download_artifacts_spec (artifacts : List Artifact) (s : Cache) :
    Spec faults Free (downloadArtifacts installer loc artifacts)
      (Staged installer.store.ext loc artifacts s) s := by
  induction artifacts generalizing s with
  | nil => exact spec_pure fun _ => ⟨.refl loc s, by simp⟩
  | cons artifact rest ih =>
      refine spec_bind ((create_contained_parent_directories_only _).spec_then
        fun result a ha => ?_)
      cases result with
      | error error => exact .error
      | ok =>
          refine spec_bind ((download_spec artifact a).imp fun result b hb => ?_)
          cases result with
          | error error => exact .error
          | ok => exact (ih b).imp fun _ _ h => .before ha (hb.cons h)

end Artifacts

/-- A tree with all declared artifacts and the manifest. -/
structure CompleteTree (ext : External) (manifest : Manifest) (tree : Tree) : Prop where
  artifacts : ∀ artifact ∈ manifest.artifacts, ∃ bytes,
    tree.entries.lookup artifact.relative = some (.file bytes) ∧
    bytes.length = artifact.size.toNat ∧ ext.sha256 bytes = artifact.sha256
  manifest : ∃ encoded, manifest.toJson ext = .ok encoded ∧
    tree.entries.lookup manifestFile = some (.file encoded)

theorem HasFile.lookup {loc : Loc} {path : RelPath} {bytes : List UInt8} {s : Cache} {tree : Tree}
    (h : HasFile loc path bytes s) (htree : s.entry loc = some (.dir tree)) :
    tree.entries.lookup path = some (.file bytes) := by
  rw [HasFile, Cache.node_of_tree (Cache.tree_eq_some.mpr htree)] at h
  split at h
  · cases h
  · exact h

/-- What stands at a location is complete. -/
def StagedComplete (ext : External) (loc : Loc) (manifest : Manifest) (s : Cache) : Prop :=
  ∀ tree, s.entry loc = some (.dir tree) → CompleteTree ext manifest tree

theorem staged_complete_of {ext : External} {loc : Loc} {manifest : Manifest} {encoded : List UInt8}
    {s : Cache} (hartifacts : ∀ artifact ∈ manifest.artifacts, HasArtifact ext loc artifact s)
    (hencoded : manifest.toJson ext = .ok encoded) (hfile : HasFile loc manifestFile encoded s) :
    StagedComplete ext loc manifest s := by
  intro tree htree
  refine ⟨fun artifact hartifact => ?_, encoded, hencoded, hfile.lookup htree⟩
  obtain ⟨bytes, hbytes, hrest⟩ := hartifacts artifact hartifact
  exact ⟨bytes, hbytes.lookup htree, hrest⟩

end EmbeddingServer
