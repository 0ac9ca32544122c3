import EmbeddingServer.Models.Install
import EmbeddingServer.Models.StoreLogic

/-!
# Footprints

Which primitives each function of the store can come to perform, whatever they answer.
`Inspects` is the footprint of a verification, `Confined` that of code that works on one
location, `Transacts` that of code that works on one key under a lock somebody else holds,
and `Local` that of everything done for one key.
-/

namespace EmbeddingServer

/-- Every primitive of store code satisfies a predicate. -/
def Only {α : Type} (allowed : FsOp → Prop) (body : StoreM α) : Prop :=
  Program.All allowed body.run

section

variable {allowed allowed' : FsOp → Prop} {α β : Type}

theorem Only.mono {body : StoreM α} (h : Only allowed body)
    (himp : ∀ op, allowed op → allowed' op) : Only allowed' body :=
  Program.All.mono h himp

theorem only_pure (value : α) : Only allowed (pure value) := trivial

theorem only_throw (error : Error) : Only allowed (throw error : StoreM α) := trivial

theorem only_invalid (message : String) : Only allowed (invalid message : StoreM α) := trivial

theorem only_lift (result : Except Error α) : Only allowed (lift result) := trivial

theorem only_fs {op : FsOp} (h : allowed op) : Only allowed (fs op) := ⟨h, fun _ => trivial⟩

theorem only_bind {body : StoreM α} {rest : α → StoreM β} (h : Only allowed body)
    (hrest : ∀ value, Only allowed (rest value)) : Only allowed (body >>= rest) := by
  refine Program.All.bind h fun result => ?_
  cases result with
  | error => trivial
  | ok value => exact hrest value

theorem only_attempt {body : StoreM α} (h : Only allowed body) : Only allowed (attempt body) :=
  Program.All.bind h fun _ => trivial

theorem only_fail_if (condition : Prop) [Decidable condition] (error : Error) :
    Only allowed (failIf condition error) := by
  unfold failIf
  split <;> trivial

theorem only_or_invalid {message : String} {body : StoreM α} (h : Only allowed body) :
    Only allowed (orInvalid message body) := by
  refine only_bind (only_attempt h) fun result => ?_
  cases result <;> trivial

theorem only_symlink_metadata {loc : Loc} (h : allowed (.metadata loc)) :
    Only allowed (symlinkMetadata loc) := by
  refine only_bind (only_fs h) fun found => ?_
  cases found <;> trivial

theorem only_path_metadata {loc : Loc} {path : RelPath} (h : allowed (.fileMetadata loc path)) :
    Only allowed (pathMetadata loc path) := by
  refine only_bind (only_fs h) fun found => ?_
  cases found <;> trivial

end

/-- Looking at a location, and creating the given directories below it. -/
def FsOp.Inspects (loc : Loc) (dirs : List RelPath) : FsOp → Prop
  | .metadata l => l = loc
  | .openDir l _ => l = loc
  | .fileMetadata l _ => l = loc
  | .openFile l _ => l = loc
  | .read l _ _ _ => l = loc
  | .makeDir l path => l = loc ∧ path ∈ dirs
  | .poll => True
  | _ => False

/-- Working on one location. -/
def FsOp.Confined (loc : Loc) : FsOp → Prop
  | .metadata l => l = loc
  | .syncDir l => l = loc
  | .syncEntry l _ => l = loc
  | .readTree l => l = loc
  | .listRemoval l => l = loc
  | .unlink l _ => l = loc
  | .removeDir l => l = loc
  | .createDir l => l = loc
  | .makeDir l _ => l = loc
  | .openDir l _ => l = loc
  | .createFile l _ => l = loc
  | .append l _ _ => l = loc
  | .fileMetadata l _ => l = loc
  | .openFile l _ => l = loc
  | .read l _ _ _ => l = loc
  | .markerMetadata _ => False
  | .rename .. => False
  | .createMarker _ => False
  | .syncMarker _ => False
  | .removeMarker _ => False
  | .quarantineCandidate .. => False
  | .openLock _ => False
  | .tryLock .. => False
  | .unlock .. => False
  | _ => True

/-- Creating, flushing and looking at one location, but neither writing nor removing. -/
def FsOp.Builds (loc : Loc) : FsOp → Prop
  | .append .. => False
  | .unlink .. => False
  | .removeDir _ => False
  | .createDir _ => False
  | op => op.Confined loc

/-- Working on one key. -/
def FsOp.Local (key : String) : FsOp → Prop
  | .metadata loc => loc.key = key
  | .markerMetadata k => k = key
  | .syncDir loc => loc.key = key
  | .syncEntry loc _ => loc.key = key
  | .rename src dst => src.key = key ∧ dst.key = key
  | .createMarker k => k = key
  | .syncMarker k => k = key
  | .removeMarker k => k = key
  | .quarantineCandidate k _ => k = key
  | .readTree loc => loc.key = key
  | .listRemoval loc => loc.key = key
  | .unlink loc _ => loc.key = key
  | .removeDir loc => loc.key = key
  | .createDir loc => loc.key = key
  | .makeDir loc _ => loc.key = key
  | .openDir loc _ => loc.key = key
  | .createFile loc _ => loc.key = key
  | .append loc _ _ => loc.key = key
  | .fileMetadata loc _ => loc.key = key
  | .openFile loc _ => loc.key = key
  | .read loc _ _ _ => loc.key = key
  | .openLock k => k = key
  | .tryLock _ k _ => k = key
  | .unlock k _ => k = key
  | _ => True

/-- Neither taking nor dropping a lock. -/
def FsOp.LockFree : FsOp → Prop
  | .tryLock .. => False
  | .unlock .. => False
  | _ => True

/-- Working on one key without touching a lock. -/
def FsOp.Transacts (key : String) (op : FsOp) : Prop :=
  op.Local key ∧ op.LockFree

theorem FsOp.Inspects.builds {loc : Loc} {dirs : List RelPath} {op : FsOp}
    (h : op.Inspects loc dirs) : op.Builds loc := by
  cases op <;> first | exact h.elim | trivial | exact h | exact h.1

theorem FsOp.Builds.confined {loc : Loc} {op : FsOp} (h : op.Builds loc) : op.Confined loc := by
  cases op <;> first | exact h.elim | exact h

theorem FsOp.Inspects.confined {loc : Loc} {dirs : List RelPath} {op : FsOp}
    (h : op.Inspects loc dirs) : op.Confined loc :=
  h.builds.confined

theorem FsOp.Confined.transacts {loc : Loc} {op : FsOp} (h : op.Confined loc) :
    op.Transacts loc.key := by
  cases op <;> first
    | exact h.elim
    | exact ⟨trivial, trivial⟩
    | exact ⟨congrArg Loc.key h, trivial⟩

/-! ## Verification -/

section Inspection

variable {loc : Loc} {dirs : List RelPath} {store : ModelStore} {cancelled : StoreM Bool}

theorem reject_reparse_only : Only (FsOp.Inspects loc dirs) (rejectReparse loc) := by
  refine only_bind (only_fs rfl) fun found => ?_
  split <;> trivial

theorem reject_reparse_paths_only (paths : List RelPath) :
    Only (FsOp.Inspects loc dirs) (rejectReparsePaths loc paths) := by
  induction paths with
  | nil => exact only_pure ()
  | cons path rest ih =>
      refine only_bind (only_fs rfl) fun found => ?_
      split
      · exact only_invalid _
      · exact ih
      · exact only_pure ()

theorem reject_reparse_components_only (path : RelPath) :
    Only (FsOp.Inspects loc dirs) (rejectReparseComponents loc path) :=
  only_bind reject_reparse_only fun _ => reject_reparse_paths_only _

theorem ensure_directory_only {path : RelPath} (hpath : path ∈ dirs) :
    Only (FsOp.Inspects loc dirs) (ensureDirectory loc path) := by
  refine only_bind (only_attempt (only_fs ⟨rfl, hpath⟩)) fun result => ?_
  split <;> trivial

theorem open_directories_only {paths : List RelPath} (hpaths : paths ⊆ dirs) :
    Only (FsOp.Inspects loc dirs) (openDirectories loc paths) := by
  induction paths with
  | nil => exact only_pure ()
  | cons path rest ih =>
      refine only_bind (ensure_directory_only (hpaths (by simp))) fun _ => ?_
      refine only_bind (only_fs rfl) fun _ => ih fun other hother => hpaths (by simp [hother])

theorem securely_open_parent_only {path : RelPath} (hpath : parentDirectories path ⊆ dirs) :
    Only (FsOp.Inspects loc dirs) (securelyOpenParent loc path) :=
  only_bind (only_fs rfl) fun _ => open_directories_only hpath

theorem securely_open_existing_file_only {path : RelPath} (hpath : parentDirectories path ⊆ dirs) :
    Only (FsOp.Inspects loc dirs) (securelyOpenExistingFile loc path) :=
  only_bind (securely_open_parent_only hpath) fun _ => only_fs rfl

theorem read_to_end_only (path : RelPath) (limit fuel : Nat) (bytes : List UInt8) :
    Only (FsOp.Inspects loc dirs) (readToEnd loc path limit fuel bytes) := by
  induction fuel generalizing bytes with
  | zero => exact only_pure _
  | succ fuel ih =>
      unfold readToEnd
      split
      · exact only_pure _
      · refine only_bind (only_fs rfl) fun chunk => ?_
        split
        · exact only_pure _
        · exact ih _

theorem read_contained_manifest_only :
    Only (FsOp.Inspects loc dirs) (readContainedManifest store loc) := by
  refine only_bind (only_or_invalid (only_symlink_metadata rfl)) fun _ => ?_
  refine only_bind (only_fail_if _ _) fun _ => ?_
  refine only_bind (only_or_invalid (only_fs rfl)) fun _ => ?_
  refine only_bind (only_or_invalid (only_path_metadata rfl)) fun _ => ?_
  refine only_bind (only_fail_if _ _) fun _ => ?_
  refine only_bind (only_or_invalid (read_to_end_only _ _ _ _)) fun _ => ?_
  refine only_bind (only_or_invalid (only_path_metadata rfl)) fun _ => ?_
  exact only_bind (only_fail_if _ _) fun _ => only_lift _

theorem open_contained_regular_file_only {path : RelPath} {size : Nat}
    (hpath : parentDirectories path ⊆ dirs) :
    Only (FsOp.Inspects loc dirs) (openContainedRegularFile loc path size) := by
  refine only_bind (reject_reparse_components_only _) fun _ => ?_
  refine only_bind (securely_open_existing_file_only hpath) fun _ => ?_
  exact only_bind (only_path_metadata rfl) fun _ => only_fail_if _ _

theorem hash_loop_only (hcancel : Only (FsOp.Inspects loc dirs) cancelled) (path : RelPath)
    (size fuel : Nat) (bytes : List UInt8) :
    Only (FsOp.Inspects loc dirs) (hashLoop loc path size cancelled fuel bytes) := by
  induction fuel generalizing bytes with
  | zero => exact only_pure _
  | succ fuel ih =>
      refine only_bind hcancel fun _ => ?_
      refine only_bind (only_fail_if _ _) fun _ => ?_
      dsimp only
      split
      · exact only_pure _
      · refine only_bind (only_fs rfl) fun chunk => ?_
        split
        · exact only_pure _
        · split
          · exact only_pure _
          · exact ih _

theorem verify_contained_artifact_only (hcancel : Only (FsOp.Inspects loc dirs) cancelled)
    {artifact : Artifact} (hpath : parentDirectories artifact.relative ⊆ dirs) :
    Only (FsOp.Inspects loc dirs) (verifyContainedArtifact store loc artifact cancelled) := by
  refine only_bind (only_attempt (open_contained_regular_file_only hpath)) fun result => ?_
  split
  · exact only_pure _
  · exact only_pure _
  · exact only_throw _
  · refine only_bind (only_fail_if _ _) fun _ => ?_
    refine only_bind (hash_loop_only hcancel _ _ _ _) fun found => ?_
    split
    · exact only_pure _
    · exact only_bind (only_path_metadata rfl) fun _ => only_pure _

theorem verify_artifacts_only (hcancel : Only (FsOp.Inspects loc dirs) cancelled)
    {artifacts : List Artifact}
    (hpaths : ∀ artifact ∈ artifacts, parentDirectories artifact.relative ⊆ dirs) :
    Only (FsOp.Inspects loc dirs) (verifyArtifacts store loc cancelled artifacts) := by
  induction artifacts with
  | nil => exact only_pure _
  | cons artifact rest ih =>
      refine only_bind (verify_contained_artifact_only hcancel (hpaths artifact (by simp)))
        fun verified => ?_
      split
      · exact ih fun other hother => hpaths other (by simp [hother])
      · exact only_pure _

end Inspection

/-- The directories a verification may come to create. -/
def artifactDirectories (manifest : Manifest) : List RelPath :=
  manifest.artifacts.flatMap fun artifact => parentDirectories artifact.relative

theorem status_inner_only {store : ModelStore} {manifest : Manifest} {cancelled : StoreM Bool}
    (hcancel : Only (FsOp.Inspects (.models (store.key manifest)) (artifactDirectories manifest))
      cancelled) :
    Only (FsOp.Inspects (.models (store.key manifest)) (artifactDirectories manifest))
      (statusInner store manifest cancelled) := by
  refine only_bind (only_attempt reject_reparse_only) fun result => ?_
  split
  · exact only_pure _
  · refine only_bind (only_fs rfl) fun found => ?_
    split
    · exact only_pure _
    · refine only_bind (only_attempt read_contained_manifest_only) fun result => ?_
      split
      · exact only_pure _
      · split
        · exact only_pure _
        · rename_i stored hstored
          replace hstored : stored = manifest := by simpa using hstored
          subst hstored
          refine only_bind (verify_artifacts_only hcancel fun artifact hartifact => ?_)
            fun verified => ?_
          · exact fun path hpath => List.mem_flatMap.mpr ⟨artifact, hartifact, hpath⟩
          · split
            · refine only_bind (only_lift _) fun trusted => ?_
              split <;> trivial
            · exact only_pure _
    · exact only_pure _

/-! ## Staging and removal -/

section Confinement

variable {loc : Loc} {store : ModelStore} {α : Type}

theorem Only.builds {dirs : List RelPath} {body : StoreM α}
    (h : Only (FsOp.Inspects loc dirs) body) : Only (FsOp.Builds loc) body :=
  h.mono fun _ hop => hop.builds

theorem Only.confined {body : StoreM α} (h : Only (FsOp.Builds loc) body) :
    Only (FsOp.Confined loc) body :=
  h.mono fun _ hop => hop.confined

theorem ensure_contained_directory_only :
    Only (FsOp.Confined loc) (ensureContainedDirectory loc) :=
  only_bind (only_symlink_metadata rfl) fun _ => only_fail_if _ _

theorem revalidate_contained_directory_only (path : RelPath) :
    Only (FsOp.Builds loc) (revalidateContainedDirectory loc path) := by
  refine only_bind (@reject_reparse_components_only loc [] path).builds fun _ => ?_
  exact only_bind (only_path_metadata rfl) fun _ => only_fail_if _ _

theorem revalidate_contained_path_only (path : RelPath) :
    Only (FsOp.Builds loc) (revalidateContainedPath loc path) := by
  refine only_bind (@reject_reparse_components_only loc [] path).builds fun _ => ?_
  exact only_bind (only_path_metadata rfl) fun _ => only_fail_if _ _

theorem create_contained_parent_directories_only (path : RelPath) :
    Only (FsOp.Builds loc) (createContainedParentDirectories loc path) :=
  only_bind (securely_open_parent_only (List.Subset.refl _)).builds fun _ =>
    revalidate_contained_directory_only _

theorem create_new_contained_file_only (path : RelPath) :
    Only (FsOp.Builds loc) (createNewContainedFile loc path) := by
  refine only_bind (securely_open_parent_only (List.Subset.refl _)).builds fun _ => ?_
  refine only_bind (only_fs rfl) fun _ => ?_
  refine only_bind (only_path_metadata rfl) fun _ => ?_
  exact only_bind (only_fail_if _ _) fun _ => revalidate_contained_path_only _

theorem stable_import_destination_error_only {path : RelPath} {body : StoreM α}
    (h : Only (FsOp.Builds loc) body) :
    Only (FsOp.Builds loc) (stableImportDestinationError loc path body) := by
  refine only_bind (only_attempt h) fun result => ?_
  split
  · exact only_pure _
  · refine only_bind (only_attempt (@reject_reparse_components_only loc [] path).builds)
      fun result => ?_
    split <;> trivial

theorem copy_loop_only (path : RelPath) (size fuel : Nat) (bytes : List UInt8) :
    Only (FsOp.Confined loc) (copyLoop loc path size fuel bytes) := by
  induction fuel generalizing bytes with
  | zero => exact only_throw _
  | succ fuel ih =>
      refine only_bind (only_fs trivial) fun chunk => ?_
      split
      · exact only_pure _
      · split
        · exact only_throw _
        · exact only_bind (only_fs rfl) fun _ => ih _

theorem reread_loop_only (path : RelPath) (size fuel : Nat) (bytes : List UInt8) :
    Only (FsOp.Builds loc) (rereadLoop loc path size fuel bytes) := by
  induction fuel generalizing bytes with
  | zero => exact only_throw _
  | succ fuel ih =>
      refine only_bind (only_fs rfl) fun chunk => ?_
      split
      · exact only_pure _
      · split
        · exact only_throw _
        · exact ih _

theorem reread_staged_only (artifact : Artifact) :
    Only (FsOp.Builds loc) (rereadStaged store loc artifact) := by
  refine only_bind (stable_import_destination_error_only
    (securely_open_existing_file_only (List.Subset.refl _)).builds) fun _ => ?_
  refine only_bind (only_path_metadata rfl) fun _ => ?_
  refine only_bind (only_fail_if _ _) fun _ => ?_
  exact only_bind (reread_loop_only _ _ _ _) fun _ => only_fail_if _ _

theorem inspect_source_only (path : RelPath) : Only (FsOp.Builds loc) (inspectSource path) := by
  refine only_bind (only_fs trivial) fun found => ?_
  cases found <;> trivial

theorem copy_import_artifact_only (artifact : Artifact) :
    Only (FsOp.Confined loc) (copyImportArtifact store loc artifact) := by
  refine only_bind (only_fs trivial) fun _ => ?_
  refine only_bind (only_fail_if _ _) fun _ => ?_
  refine only_bind (only_fail_if _ _) fun _ => ?_
  refine only_bind (stable_import_destination_error_only
    (create_new_contained_file_only _)).confined fun _ => ?_
  refine only_bind (copy_loop_only _ _ _ _) fun _ => ?_
  refine only_bind (only_fs rfl) fun _ => ?_
  refine only_bind (only_fail_if _ _) fun _ => ?_
  exact only_bind (only_fail_if _ _) fun _ => (reread_staged_only _).confined

theorem import_artifact_only (artifact : Artifact) :
    Only (FsOp.Confined loc) (importArtifact store loc artifact) := by
  refine only_bind (inspect_source_only _).confined fun _ => ?_
  refine only_bind (stable_import_destination_error_only
    (create_contained_parent_directories_only _)).confined fun _ => ?_
  exact copy_import_artifact_only _

theorem import_artifacts_only (artifacts : List Artifact) :
    Only (FsOp.Confined loc) (importArtifacts store loc artifacts) := by
  induction artifacts with
  | nil => exact only_pure _
  | cons artifact rest ih => exact only_bind (import_artifact_only _) fun _ => ih

theorem remove_entries_only (entries : List (RelPath × FileKind)) :
    Only (FsOp.Confined loc) (removeEntries loc entries) := by
  induction entries with
  | nil => exact only_fs rfl
  | cons item rest ih => exact only_bind (only_fs rfl) fun _ => ih

theorem remove_dir_all_only : Only (FsOp.Confined loc) (removeDirAll loc) :=
  only_bind (only_fs rfl) fun _ => remove_entries_only _

theorem create_roots_only (roots : List Root) : Only (FsOp.Confined loc) (createRoots roots) := by
  induction roots with
  | nil => exact only_pure _
  | cons root rest ih =>
      exact only_bind (only_fs trivial) fun _ => only_bind (only_fs trivial) fun _ => ih

theorem remove_staging_only (key : String) :
    Only (FsOp.Confined (.staging key)) (removeStaging key) := by
  refine only_bind (only_fs rfl) fun found => ?_
  split
  · exact only_pure _
  · exact only_bind remove_dir_all_only fun _ => only_fs trivial
  · exact only_invalid _

theorem prepare_staging_only (key : String) :
    Only (FsOp.Confined (.staging key)) (prepareStaging key) := by
  refine only_bind (create_roots_only _) fun _ => ?_
  refine only_bind (only_fs trivial) fun _ => ?_
  refine only_bind (remove_staging_only key) fun _ => ?_
  refine only_bind (only_fs rfl) fun _ => ?_
  refine only_bind ensure_contained_directory_only fun _ => ?_
  refine only_bind (only_fs rfl) fun _ => ?_
  exact only_bind (only_fs trivial) fun _ => only_fs trivial

theorem stop_if_cancelled_only : Only (FsOp.Builds loc) stopIfCancelled :=
  only_bind (only_fs trivial) fun _ => only_fail_if _ _

theorem send_request_only (installer : Installer) (url : Url) :
    Only (FsOp.Builds loc) (sendRequest installer url) := by
  refine only_bind (only_lift _) fun _ => ?_
  refine only_bind stop_if_cancelled_only fun _ => ?_
  refine only_bind (only_fs trivial) fun response => ?_
  split
  · exact only_throw _
  · exact only_bind stop_if_cancelled_only fun _ => only_pure _

theorem follow_redirects_only (installer : Installer) (remaining : Nat) (url : Url) :
    Only (FsOp.Builds loc) (followRedirects installer remaining url) := by
  induction remaining generalizing url with
  | zero =>
      refine only_bind (send_request_only installer url) fun response => ?_
      split
      · exact only_invalid _
      · split <;> trivial
  | succ remaining ih =>
      refine only_bind (send_request_only installer url) fun response => ?_
      split
      · exact only_bind (only_lift _) fun target => ih target
      · split <;> trivial

theorem receive_body_only (installer : Installer) (path : RelPath) (size fuel : Nat)
    (received : List UInt8) :
    Only (FsOp.Confined loc) (receiveBody installer loc path size fuel received) := by
  induction fuel generalizing received with
  | zero => exact only_throw _
  | succ fuel ih =>
      refine only_bind stop_if_cancelled_only.confined fun _ => ?_
      refine only_bind (only_fs trivial) fun chunk => ?_
      split
      · exact only_throw _
      · exact only_pure _
      · dsimp only
        split
        · exact only_throw _
        · exact only_bind (only_fs rfl) fun _ => ih _

theorem store_body_only (installer : Installer) (artifact : Artifact) :
    Only (FsOp.Confined loc) (storeBody installer loc artifact) := by
  refine only_bind (create_new_contained_file_only _).confined fun _ => ?_
  refine only_bind (receive_body_only _ _ _ _ _) fun _ => ?_
  refine only_bind (only_fs rfl) fun _ => ?_
  refine only_bind (only_path_metadata rfl) fun _ => ?_
  refine only_bind (only_fail_if _ _) fun _ => ?_
  refine only_bind (only_fail_if _ _) fun _ => ?_
  exact only_bind (only_fail_if _ _) fun _ => (revalidate_contained_path_only _).confined

theorem download_only (installer : Installer) (artifact : Artifact) :
    Only (FsOp.Confined loc) (download installer loc artifact) := by
  unfold download
  split
  · exact only_invalid _
  · refine only_bind (follow_redirects_only _ _ _).confined fun _ => ?_
    exact only_bind (only_lift _) fun _ => store_body_only _ _

theorem download_artifacts_only (installer : Installer) (artifacts : List Artifact) :
    Only (FsOp.Confined loc) (downloadArtifacts installer loc artifacts) := by
  induction artifacts with
  | nil => exact only_pure _
  | cons artifact rest ih =>
      refine only_bind (create_contained_parent_directories_only _).confined fun _ => ?_
      exact only_bind (download_only _ _) fun _ => ih

theorem remove_deletion_tombstone_only (key : String) :
    Only (FsOp.Confined (.tombstone key)) (removeDeletionTombstone key) := by
  refine only_bind (only_fs rfl) fun found => ?_
  split
  · exact only_pure _
  · exact only_bind remove_dir_all_only fun _ => only_fs trivial
  · exact only_invalid _

end Confinement

end EmbeddingServer
