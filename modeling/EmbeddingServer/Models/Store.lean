import EmbeddingServer.Models.FileSystem
import Mathlib.Data.List.Sort

/-!
# The model store

`store.rs` as programs over the filesystem primitives. The functions carry the names of the
source; the closures `rename`, `sync_file`, `sync_dir` and `remove_dir_all` that the source
passes around are the primitives themselves, and `observe` is a primitive that an observer
may fail. Where the source computes a path from the manifest each time, the functions here
take the cache key, which is the same each time.

Links are told apart at the locations and inside trees, as `reject_reparse_components` does;
the lock files and the five directories of the layout are taken to be real. Recursive
functions of the standard library visit a tree entry by entry, so a crash or a failure can
come between any two entries.
-/

namespace EmbeddingServer

/-- `MANIFEST_FILE`. -/
def manifestFile : RelPath := ["manifest.json"]

/-- The path of an artifact below its tree. -/
def Artifact.relative (artifact : Artifact) : RelPath :=
  (splitSlash artifact.path).map String.ofList

/-- The directories a path goes through, outermost first. -/
def parentDirectories (path : RelPath) : List RelPath :=
  path.dropLast.inits.tail

/-- The size of the copy and verification buffers. -/
def bufferSize : Nat := 64 * 1024

/-- A store as one process opened it, for one call. `attempts` is the number of retries that fit
into `LOCK_WAIT_LIMIT`; `task` tells calls that run at the same time apart and owns the handles
the call opens. -/
structure ModelStore where
  ext : External
  trustRoot : List String
  pid : Nat
  attempts : Nat
  task : Nat

/-- `SemanticTrustRoot::trusts`. -/
def ModelStore.trusts (store : ModelStore) (manifest : Manifest) : Except Error Bool :=
  if manifest.semanticsVerified then
    (manifest.semanticFingerprint store.ext).map fun fingerprint =>
      store.trustRoot.contains fingerprint
  else .ok false

/-- `CacheLayout::key` of a valid manifest. -/
def ModelStore.key (store : ModelStore) (manifest : Manifest) : String :=
  manifest.semanticDigest store.ext

/-! ## Path checks -/

/-- `reject_reparse_components` for a location. -/
def rejectReparse (loc : Loc) : StoreM Unit := do
  match ← fs (.metadata loc) with
  | some .link => invalid "path contains a symlink or reparse point"
  | _ => pure ()

/-- The loop of `reject_reparse_components` over the components of a path below a location. -/
def rejectReparsePaths (loc : Loc) : List RelPath → StoreM Unit
  | [] => pure ()
  | path :: rest => do
      match ← fs (.fileMetadata loc path) with
      | some (.link, _) => invalid "path contains a symlink or reparse point"
      | some _ => rejectReparsePaths loc rest
      | none => pure ()

/-- `reject_reparse_components` for a path below a location. -/
def rejectReparseComponents (loc : Loc) (path : RelPath) : StoreM Unit := do
  rejectReparse loc
  rejectReparsePaths loc path.inits.tail

/-- `ensure_contained_directory`. -/
def ensureContainedDirectory (loc : Loc) : StoreM Unit := do
  let kind ← symlinkMetadata loc
  failIf (kind = .link) (.invalid "cache directory cannot be a symlink")

/-- `revalidate_contained_directory`. -/
def revalidateContainedDirectory (loc : Loc) (path : RelPath) : StoreM Unit := do
  rejectReparseComponents loc path
  let metadata ← pathMetadata loc path
  failIf (metadata.1 ≠ .dir) (.invalid "cache directory cannot be a symlink or reparse point")

/-- `revalidate_contained_path`. -/
def revalidateContainedPath (loc : Loc) (path : RelPath) : StoreM Unit := do
  rejectReparseComponents loc path
  let metadata ← pathMetadata loc path
  failIf (metadata.1 ≠ .file) (.invalid "cache leaf is not a regular non-reparse file")

/-- `mkdirat`, where an existing entry is no error. -/
def ensureDirectory (loc : Loc) (path : RelPath) : StoreM Unit := do
  match ← attempt (fs (.makeDir loc path)) with
  | .ok () => pure ()
  | .error (.io .alreadyExists) => pure ()
  | .error error => throw error

/-- The loop of `securely_open_unix_parent`: create each directory unless it exists, and open
it. -/
def openDirectories (loc : Loc) : List RelPath → StoreM Unit
  | [] => pure ()
  | path :: rest => do
      ensureDirectory loc path
      fs (.openDir loc path)
      openDirectories loc rest

/-- `securely_open_unix_parent` for the parent of a file. -/
def securelyOpenParent (loc : Loc) (path : RelPath) : StoreM Unit := do
  fs (.openDir loc [])
  openDirectories loc (parentDirectories path)

/-- `create_contained_parent_directories`. -/
def createContainedParentDirectories (loc : Loc) (path : RelPath) : StoreM Unit := do
  securelyOpenParent loc path
  revalidateContainedDirectory loc path.dropLast

/-- `create_new_contained_file`. -/
def createNewContainedFile (loc : Loc) (path : RelPath) : StoreM Unit := do
  securelyOpenParent loc path
  fs (.createFile loc path)
  let metadata ← pathMetadata loc path
  failIf (metadata.1 ≠ .file) (.invalid "cache leaf is not a regular non-reparse file")
  revalidateContainedPath loc path

/-- `securely_open_existing_file`. -/
def securelyOpenExistingFile (loc : Loc) (path : RelPath) : StoreM Unit := do
  securelyOpenParent loc path
  fs (.openFile loc path)

/-! ## Reading an installed identity -/

/-- Read a file to its end through one handle, at most `limit` bytes. -/
def readToEnd (loc : Loc) (path : RelPath) (limit : Nat) : Nat → List UInt8 → StoreM (List UInt8)
  | 0, bytes => pure bytes
  | fuel + 1, bytes => do
      if limit ≤ bytes.length then pure bytes
      else
        let chunk ← fs (.read loc path bytes.length (limit - bytes.length))
        if chunk = [] then pure bytes else readToEnd loc path limit fuel (bytes ++ chunk)

/-- `read_contained_manifest`. -/
def readContainedManifest (store : ModelStore) (loc : Loc) : StoreM Manifest := do
  let directory ← orInvalid "manifest directory is unavailable" (symlinkMetadata loc)
  failIf (directory ≠ .dir)
    (.invalid "manifest directory cannot be a symlink or reparse point")
  orInvalid "manifest is unavailable" (fs (.openFile loc manifestFile))
  let initial ← orInvalid "manifest is unavailable" (pathMetadata loc manifestFile)
  failIf (initial.1 ≠ .file ∨ maxManifestBytes < initial.2)
    (.invalid "manifest must be a bounded regular non-reparse file")
  let bytes ← orInvalid "manifest is unavailable"
    (readToEnd loc manifestFile (maxManifestBytes + 1) (maxManifestBytes + 1) [])
  let final ← orInvalid "manifest is unavailable" (pathMetadata loc manifestFile)
  failIf (final.1 ≠ .file ∨ maxManifestBytes < bytes.length ∨ final.2 ≠ initial.2 ∨
      final.2 ≠ bytes.length)
    (.invalid "manifest changed while it was being read")
  lift (Manifest.fromJson store.ext bytes)

/-- `open_contained_regular_file`. -/
def openContainedRegularFile (loc : Loc) (path : RelPath) (expectedSize : Nat) : StoreM Unit := do
  rejectReparseComponents loc path
  securelyOpenExistingFile loc path
  let metadata ← pathMetadata loc path
  failIf (metadata.1 ≠ .file ∨ metadata.2 ≠ expectedSize)
    (.invalid "artifact changed after verification")

/-- The loop of `verify_contained_artifact`: the bytes up to the end of the file, or nothing if
there are more than declared. Each round reads at least one byte, so `size + 2` rounds are
enough. -/
def hashLoop (loc : Loc) (path : RelPath) (size : Nat) (cancelled : StoreM Bool) :
    Nat → List UInt8 → StoreM (Option (List UInt8))
  | 0, _ => pure none
  | fuel + 1, bytes => do
      let stop ← cancelled
      failIf (stop = true) .cancelled
      let remaining := size + 1 - bytes.length
      if remaining = 0 then pure none
      else
        let chunk ← fs (.read loc path bytes.length (min remaining bufferSize))
        if chunk = [] then pure (some bytes)
        else if size < bytes.length + chunk.length then pure none
        else hashLoop loc path size cancelled fuel (bytes ++ chunk)

/-- The part of `verify_contained_artifact` after the file is open. -/
def verifyOpened (store : ModelStore) (loc : Loc) (artifact : Artifact) (cancelled : StoreM Bool) :
    StoreM Bool := do
  let path := artifact.relative
  let size := artifact.size.toNat
  failIf (2 ^ wordBits ≤ size + 1) (.invalid "artifact length overflow")
  match ← hashLoop loc path size cancelled (size + 2) [] with
  | none => pure false
  | some bytes =>
      let final ← pathMetadata loc path
      pure (final.1 = .file && final.2 = size && bytes.length = size &&
        store.ext.sha256 bytes = artifact.sha256)

/-- `verify_contained_artifact`. -/
def verifyContainedArtifact (store : ModelStore) (loc : Loc) (artifact : Artifact)
    (cancelled : StoreM Bool) : StoreM Bool := do
  match ← attempt (openContainedRegularFile loc artifact.relative artifact.size.toNat) with
  | .error (.io .notFound) => pure false
  | .error (.invalid _) => pure false
  | .error error => throw error
  | .ok () => verifyOpened store loc artifact cancelled

/-- The loop of `status_inner` over the stored artifacts. -/
def verifyArtifacts (store : ModelStore) (loc : Loc) (cancelled : StoreM Bool) :
    List Artifact → StoreM Bool
  | [] => pure true
  | artifact :: rest => do
      if ← verifyContainedArtifact store loc artifact cancelled then
        verifyArtifacts store loc cancelled rest
      else pure false

/-- The part of `status_inner` for a directory: the stored manifest and every artifact. -/
def statusOfTree (store : ModelStore) (manifest : Manifest) (cancelled : StoreM Bool) :
    StoreM ModelStatus := do
  let loc := Loc.models (store.key manifest)
  match ← attempt (readContainedManifest store loc) with
  | .error _ => pure .invalid
  | .ok stored =>
      if stored ≠ manifest then pure .invalid
      else if ← verifyArtifacts store loc cancelled stored.artifacts then
        if ← lift (store.trusts stored) then pure .loadable else pure .integrityVerified
      else pure .invalid

/-- `ModelStore::status_inner`. -/
def statusInner (store : ModelStore) (manifest : Manifest) (cancelled : StoreM Bool) :
    StoreM ModelStatus := do
  let loc := Loc.models (store.key manifest)
  match ← attempt (rejectReparse loc) with
  | .error _ => pure .invalid
  | .ok () =>
      match ← fs (.metadata loc) with
      | none => pure .missing
      | some .dir => statusOfTree store manifest cancelled
      | some _ => pure .invalid

/-! ## Promotion and recovery -/

/-- Flush the directories that a rename changes, the second only if it is another one. -/
def syncParents (src dst : Loc) : StoreM Unit := do
  fs (.syncRoot src.parent)
  if src.parent ≠ dst.parent then fs (.syncRoot dst.parent)

/-- `durable_rename`. -/
def durableRename (src dst : Loc) : StoreM Unit := do
  fs (.syncDir src)
  syncParents src dst
  fs (.rename src dst)
  fs (.syncDir dst)
  syncParents src dst

/-- Depth first, siblings by name, a directory after what is in it. -/
def postOrderLe : RelPath → RelPath → Bool
  | _, [] => true
  | [], _ :: _ => false
  | left :: lefts, right :: rights =>
      if left = right then postOrderLe lefts rights else left < right

/-- The order in which a recursive function finishes with the entries of a tree. -/
def postOrder (listing : List (RelPath × FileKind)) : List (RelPath × FileKind) :=
  listing.insertionSort fun left right => postOrderLe left.1 right.1 = true

/-- One entry of `sync_staged_directory_with_operations`. -/
def syncStagedEntry (loc : Loc) (path : RelPath) : FileKind → StoreM Unit
  | .link => invalid "staged tree contains a symlink or reparse point"
  | .special => invalid "staged tree contains a special filesystem entry"
  | _ => fs (.syncEntry loc path)

/-- The entries of `sync_staged_directory_with_operations`. -/
def syncEntries (loc : Loc) : List (RelPath × FileKind) → StoreM Unit
  | [] => pure ()
  | (path, kind) :: rest => do
      syncStagedEntry loc path kind
      syncEntries loc rest

/-- `sync_staged_tree_with_operations`. -/
def syncStagedTree (loc : Loc) : StoreM Unit := do
  ensureContainedDirectory loc
  let kind ← symlinkMetadata loc
  failIf (kind ≠ .dir) (.invalid "staged tree contains an unsafe directory")
  let listing ← fs (.readTree loc)
  syncEntries loc (postOrder listing)
  fs (.syncDir loc)
  fs (.syncRoot loc.parent)
  fs (.syncRoot .cache)

/-- `verify_transaction_final`. -/
def verifyTransactionFinal (key : String) : StoreM Unit := do
  let final ← fs (.metadata (.models key))
  failIf (final ≠ some .dir)
    (.invalid "repair transaction did not restore a safe installed state")

/-- `quarantine_backup_with_operations`. -/
def quarantineBackup (store : ModelStore) (key : String) : StoreM Unit := do
  match ← fs (.metadata (.backup key)) with
  | none => pure ()
  | some _ =>
      fs (.createRoot .quarantine)
      fs (.syncRoot .cache)
      let sequence ← fs (.quarantineCandidate key store.pid)
      durableRename (.backup key) (.quarantine key store.pid sequence)

/-- Remove the marker and flush its directory. -/
def closeTransaction (key : String) : StoreM Unit := do
  fs (.removeMarker key)
  fs (.syncRoot .transactions)

/-- The end of a recovery, once the final tree is in place. -/
def finishRecovery (store : ModelStore) (key : String) : StoreM Unit := do
  verifyTransactionFinal key
  quarantineBackup store key
  closeTransaction key

/-- The table of `reconcile_repair_with_operations` over what exists of the final tree, the
staged tree and the backup. -/
def resumeTransaction (key : String) : Bool → Bool → Bool → StoreM Unit
  | true, true, false => do
      durableRename (.models key) (.backup key)
      durableRename (.staging key) (.models key)
  | false, true, true => durableRename (.staging key) (.models key)
  | false, false, true => durableRename (.backup key) (.models key)
  | true, _, _ => pure ()
  | _, _, _ => invalid "repair transaction cannot be reconciled safely"

/-- `reconcile_repair_with_operations`. -/
def reconcileRepair (store : ModelStore) (key : String) : StoreM Unit := do
  match ← fs (.markerMetadata key) with
  | none => pure ()
  | some .file =>
      let finalExists ← fs (.metadata (.models key))
      let stagingExists ← fs (.metadata (.staging key))
      let backupExists ← fs (.metadata (.backup key))
      resumeTransaction key finalExists.isSome stagingExists.isSome backupExists.isSome
      finishRecovery store key
  | some _ => invalid "repair marker is not a regular file"

/-- Write the durable marker of a replacement, if no other transaction is left over. -/
def beginTransaction (key : String) : StoreM Unit := do
  rejectReparse (.models key)
  fs (.createRoot .transactions)
  fs (.syncRoot .cache)
  let backup ← fs (.metadata (.backup key))
  failIf (backup.isSome = true) (.invalid "repair transaction state is not clean")
  let marker ← fs (.markerMetadata key)
  failIf (marker.isSome = true) (.invalid "repair transaction state is not clean")
  fs (.createMarker key)
  fs (.syncMarker key)
  fs (.syncRoot .transactions)
  fs (.observe .markerDurable)

/-- Close the transaction with the previous tree back in place, and report the error. -/
def abandonTransaction (key : String) (error : Error) : StoreM Unit := do
  verifyTransactionFinal key
  closeTransaction key
  throw error

/-- The part of `promote_with_operations` after the previous tree is displaced. -/
def promoteDisplaced (store : ModelStore) (key : String) : StoreM Unit := do
  fs (.observe .previousDisplaced)
  match ← attempt (durableRename (.staging key) (.models key)) with
  | .error _ =>
      match ← attempt (durableRename (.backup key) (.models key)) with
      | .error _ => invalid "repair promotion was interrupted and requires reconciliation"
      | .ok () =>
          abandonTransaction key
            (.invalid "replacement promotion failed; the previous model was restored")
  | .ok () =>
      verifyTransactionFinal key
      fs (.observe .replacementPromoted)
      quarantineBackup store key
      closeTransaction key

/-- The second half of `promote_with_operations`: replace an existing final tree under a
durable marker. -/
def replacePrevious (store : ModelStore) (key : String) : StoreM Unit := do
  beginTransaction key
  match ← attempt (durableRename (.models key) (.backup key)) with
  | .error error => abandonTransaction key error
  | .ok () => promoteDisplaced store key

/-- `promote_with_operations`. -/
def promote (store : ModelStore) (key : String) : StoreM Unit := do
  reconcileRepair store key
  syncStagedTree (.staging key)
  match ← fs (.metadata (.models key)) with
  | none => durableRename (.staging key) (.models key)
  | some _ => replacePrevious store key

/-! ## Locks -/

/-- Run a body while a lock handle is open, and drop the handle whatever the result. -/
def holding {α : Type} (key : String) (handle : Nat) (body : StoreM α) : StoreM α := do
  let result ← attempt body
  fs (.unlock key handle)
  lift result

/-- The retry loop of `acquire_store_lock_with_cancel`. -/
def lockExclusive (store : ModelStore) (key : String) (cancelled : StoreM Bool) :
    Nat → StoreM Nat
  | 0 => throw .busy
  | attempts + 1 => do
      let stop ← cancelled
      failIf (stop = true) .cancelled
      match ← attempt (do fs (.openLock key); fs (.tryLock store.task key true)) with
      | .ok handle => pure handle
      | .error (.io .wouldBlock) => lockExclusive store key cancelled attempts
      | .error error => throw error

/-- `acquire_store_lock_with_cancel`. -/
def acquireStoreLock (store : ModelStore) (key : String) (cancelled : StoreM Bool) :
    StoreM Nat := do
  fs (.createRoot .locks)
  lockExclusive store key cancelled (store.attempts + 1)

/-- The retry loop of `acquire_shared_store_lock`. -/
def lockShared (store : ModelStore) (key : String) : Nat → StoreM Nat
  | 0 => throw .busy
  | attempts + 1 => do
      match ← attempt (fs (.tryLock store.task key false)) with
      | .ok handle => pure handle
      | .error (.io .wouldBlock) => lockShared store key attempts
      | .error error => throw error

/-- `acquire_shared_store_lock`. -/
def acquireSharedStoreLock (store : ModelStore) (key : String) : StoreM Nat := do
  fs (.createRoot .locks)
  fs (.openLock key)
  lockShared store key (store.attempts + 1)

/-- `acquire_delete_lock`. -/
def acquireDeleteLock (store : ModelStore) (key : String) : StoreM Nat := do
  fs (.createRoot .locks)
  fs (.openLock key)
  match ← attempt (fs (.tryLock store.task key true)) with
  | .ok handle => pure handle
  | .error (.io .wouldBlock) => throw .inUse
  | .error error => throw error

/-! ## Store operations -/

/-- Reconcile under the exclusive lock if there is a marker. -/
def reconcileIfMarked (store : ModelStore) (key : String) (cancelled : StoreM Bool) :
    StoreM Unit := do
  match ← fs (.markerMetadata key) with
  | some _ =>
      let handle ← acquireStoreLock store key cancelled
      holding key handle (reconcileRepair store key)
  | none => pure ()

/-- `ModelStore::status_with_cancel`. -/
def statusWithCancel (store : ModelStore) (manifest : Manifest) (cancelled : StoreM Bool) :
    StoreM ModelStatus := do
  lift (manifest.validate store.ext)
  let stop ← cancelled
  failIf (stop = true) .cancelled
  reconcileIfMarked store (store.key manifest) cancelled
  statusInner store manifest cancelled

/-- `ModelStore::status`. -/
def status (store : ModelStore) (manifest : Manifest) : StoreM ModelStatus :=
  statusWithCancel store manifest (pure false)

/-- `VerifiedModel`: the capability with its shared lease. -/
structure VerifiedModel where
  manifest : Manifest
  root : Loc
  lease : Nat
  deriving DecidableEq

/-- What `ModelStore::verified_model` does under its shared lease: nothing if a marker has
appeared, otherwise the verification. -/
def verifyLeased (store : ModelStore) (manifest : Manifest) (lease : Nat) :
    StoreM (Option VerifiedModel) := do
  let key := store.key manifest
  match ← fs (.markerMetadata key) with
  | some _ => pure none
  | none =>
      match ← statusInner store manifest (pure false) with
      | .loadable => pure (some ⟨manifest, .models key, lease⟩)
      | .missing => invalid "model is not loadable after verification: Missing"
      | .invalid => invalid "model is not loadable after verification: Invalid"
      | .integrityVerified =>
          invalid "model is not loadable after verification: IntegrityVerified"

/-- The loop of `ModelStore::verified_model`; the result is empty while the loop still runs
after the given number of rounds. The lease is dropped unless it goes into the capability. -/
def verifiedModelLoop (store : ModelStore) (manifest : Manifest) :
    Nat → StoreM (Option VerifiedModel)
  | 0 => pure none
  | rounds + 1 => do
      let key := store.key manifest
      reconcileIfMarked store key (pure false)
      let lease ← acquireSharedStoreLock store key
      match ← attempt (verifyLeased store manifest lease) with
      | .ok (some verified) => pure (some verified)
      | .ok none =>
          fs (.unlock key lease)
          verifiedModelLoop store manifest rounds
      | .error error =>
          fs (.unlock key lease)
          throw error

/-- `ModelStore::verified_model`. -/
def verifiedModel (store : ModelStore) (manifest : Manifest) (rounds : Nat) :
    StoreM (Option VerifiedModel) := do
  lift (manifest.validate store.ext)
  verifiedModelLoop store manifest rounds

/-- The entries of `fs::remove_dir_all`, then the directory itself. -/
def removeEntries (loc : Loc) : List (RelPath × FileKind) → StoreM Unit
  | [] => fs (.removeDir loc)
  | (path, _) :: rest => do
      fs (.unlink loc path)
      removeEntries loc rest

/-- `fs::remove_dir_all`. -/
def removeDirAll (loc : Loc) : StoreM Unit := do
  let listing ← fs (.listRemoval loc)
  removeEntries loc (postOrder listing)

/-- The directories `prepare_staging` makes sure of. -/
def createRoots : List Root → StoreM Unit
  | [] => pure ()
  | root :: rest => do
      fs (.createRoot root)
      fs (.syncRoot root)
      createRoots rest

/-- Remove what an earlier attempt staged. -/
def removeStaging (key : String) : StoreM Unit := do
  match ← fs (.metadata (.staging key)) with
  | none => pure ()
  | some .dir =>
      removeDirAll (.staging key)
      fs (.syncRoot .staging)
  | some _ => invalid "unsafe staging path"

/-- `prepare_staging`. -/
def prepareStaging (key : String) : StoreM Unit := do
  createRoots [.models, .staging, .locks, .transactions]
  fs (.syncRoot .cache)
  removeStaging key
  fs (.createDir (.staging key))
  ensureContainedDirectory (.staging key)
  fs (.syncDir (.staging key))
  fs (.syncRoot .staging)
  fs (.syncRoot .cache)

/-- `stable_import_destination_error`. -/
def stableImportDestinationError {α : Type} (loc : Loc) (path : RelPath) (body : StoreM α) :
    StoreM α := do
  match ← attempt body with
  | .ok value => pure value
  | .error error =>
      match ← attempt (rejectReparseComponents loc path) with
      | .error (.invalid _) => invalid "import staging destination became unsafe"
      | _ => throw error

/-- The copy loop of `copy_import_artifact`; the copied bytes. -/
def copyLoop (loc : Loc) (path : RelPath) (size : Nat) : Nat → List UInt8 → StoreM (List UInt8)
  | 0, bytes => throw (.sizeLimit size bytes.length)
  | fuel + 1, bytes => do
      let chunk ← fs (.readSource path)
      if chunk = [] then pure bytes
      else if size < bytes.length + chunk.length then
        throw (.sizeLimit size (bytes.length + chunk.length))
      else
        fs (.append loc path chunk)
        copyLoop loc path size fuel (bytes ++ chunk)

/-- The loop of `copy_import_artifact` that reads the staged file again. -/
def rereadLoop (loc : Loc) (path : RelPath) (size : Nat) : Nat → List UInt8 → StoreM (List UInt8)
  | 0, bytes => throw (.sizeLimit size bytes.length)
  | fuel + 1, bytes => do
      let chunk ← fs (.read loc path bytes.length bufferSize)
      if chunk = [] then pure bytes
      else if size < bytes.length + chunk.length then
        throw (.sizeLimit size (bytes.length + chunk.length))
      else rereadLoop loc path size fuel (bytes ++ chunk)

/-- Inspect the import source. -/
def inspectSource (path : RelPath) : StoreM Unit := do
  match ← fs (.inspectSource path) with
  | some error => throw error
  | none => pure ()

/-- The second half of `copy_import_artifact`: verify the bytes at the staging path. -/
def rereadStaged (store : ModelStore) (loc : Loc) (artifact : Artifact) : StoreM Unit := do
  let path := artifact.relative
  let size := artifact.size.toNat
  stableImportDestinationError loc path (securelyOpenExistingFile loc path)
  let metadata ← pathMetadata loc path
  failIf (metadata.1 ≠ .file ∨ metadata.2 ≠ size)
    (.invalid "staged artifact changed during import")
  let bytes ← rereadLoop loc path size (size + 2) []
  failIf (bytes.length ≠ size ∨ store.ext.sha256 bytes ≠ artifact.sha256)
    (.hashMismatch artifact.sha256 (store.ext.sha256 bytes))

/-- `copy_import_artifact`. -/
def copyImportArtifact (store : ModelStore) (loc : Loc) (artifact : Artifact) : StoreM Unit := do
  let path := artifact.relative
  let size := artifact.size.toNat
  let source ← fs (.openSource path)
  failIf (source.1 = false) (.invalid ("artifact is not a regular file: " ++ artifact.path))
  failIf (source.2 ≠ size) (.sizeLimit size source.2)
  stableImportDestinationError loc path (createNewContainedFile loc path)
  let copied ← copyLoop loc path size (size + 2) []
  fs (.syncEntry loc path)
  failIf (copied.length ≠ size) (.sizeLimit size copied.length)
  failIf (store.ext.sha256 copied ≠ artifact.sha256)
    (.hashMismatch artifact.sha256 (store.ext.sha256 copied))
  rereadStaged store loc artifact

/-- One artifact of `import_with_write_observer`. -/
def importArtifact (store : ModelStore) (loc : Loc) (artifact : Artifact) : StoreM Unit := do
  inspectSource artifact.relative
  stableImportDestinationError loc artifact.relative
    (createContainedParentDirectories loc artifact.relative)
  copyImportArtifact store loc artifact

/-- The loop over the artifacts. -/
def importArtifacts (store : ModelStore) (loc : Loc) : List Artifact → StoreM Unit
  | [] => pure ()
  | artifact :: rest => do
      importArtifact store loc artifact
      importArtifacts store loc rest

/-- The fallible closure of `import_with_write_observer`: stage every artifact and the manifest
and promote the staged tree. -/
def stageAndPromote (store : ModelStore) (manifest : Manifest) : StoreM Unit := do
  let key := store.key manifest
  let loc := Loc.staging key
  importArtifacts store loc manifest.artifacts
  stableImportDestinationError loc manifestFile
    (createContainedParentDirectories loc manifestFile)
  stableImportDestinationError loc manifestFile (createNewContainedFile loc manifestFile)
  let encoded ← lift (manifest.toJson store.ext)
  fs (.append loc manifestFile encoded)
  fs (.syncEntry loc manifestFile)
  promote store key

/-- `import_with_write_observer` under the exclusive lock. -/
def importLocked (store : ModelStore) (manifest : Manifest) : StoreM ModelStatus := do
  let key := store.key manifest
  reconcileRepair store key
  let existing ← statusInner store manifest (pure false)
  if existing.isInstalled then pure existing
  else
    inspectSource []
    prepareStaging key
    match ← attempt (stageAndPromote store manifest) with
    | .error error =>
        -- The error path drops the staged tree, whatever the promotion left behind.
        let _ ← attempt (removeDirAll (.staging key))
        throw error
    | .ok () => status store manifest

/-- `ModelStore::import`. -/
def importModel (store : ModelStore) (manifest : Manifest) : StoreM ModelStatus := do
  lift (manifest.validate store.ext)
  let existing ← status store manifest
  if existing.isInstalled then pure existing
  else
    let handle ← acquireStoreLock store (store.key manifest) (pure false)
    holding (store.key manifest) handle (importLocked store manifest)

/-- `remove_deletion_tombstone`. -/
def removeDeletionTombstone (key : String) : StoreM Unit := do
  match ← fs (.metadata (.tombstone key)) with
  | none => pure ()
  | some .dir =>
      removeDirAll (.tombstone key)
      fs (.syncRoot .transactions)
  | some _ => invalid "deletion tombstone is not a regular directory"

/-- `if pending_deletion { … }`. -/
def removeIfPending (key : String) : Bool → StoreM Unit
  | true => removeDeletionTombstone key
  | false => pure ()

/-- The stored identity is exactly the one to delete. -/
def checkDeletionTarget (store : ModelStore) (manifest : Manifest) : StoreM Unit := do
  fs (.createRoot .models)
  let stored ← readContainedManifest store (.models (store.key manifest))
  failIf (stored ≠ manifest ∨
      stored.artifactFingerprint store.ext ≠ manifest.artifactFingerprint store.ext)
    (.invalid "stored manifest does not exactly match deletion request")

/-- Move the installed tree to the tombstone and remove it there. -/
def buryModel (store : ModelStore) (manifest : Manifest) : StoreM Bool := do
  let key := store.key manifest
  checkDeletionTarget store manifest
  durableRename (.models key) (.tombstone key)
  fs (.observe .tombstoneDurable)
  removeDeletionTombstone key
  fs (.observe .tombstoneRemoved)
  pure true

/-- The part of `delete_locked_with_operations` after the reconciliation. -/
def deleteReconciled (store : ModelStore) (manifest : Manifest) : StoreM Bool := do
  let key := store.key manifest
  fs (.observe .repairReconciled)
  fs (.createRoot .transactions)
  fs (.syncRoot .transactions)
  fs (.syncRoot .cache)
  let pending ← fs (.metadata (.tombstone key))
  removeIfPending key pending.isSome
  match ← fs (.metadata (.models key)) with
  | none => pure pending.isSome
  | some .dir => buryModel store manifest
  | some _ => invalid "refusing to delete non-directory or symlink target"

/-- `ModelStore::delete_locked_with_operations`. -/
def deleteLocked (store : ModelStore) (manifest : Manifest) : StoreM Bool := do
  reconcileRepair store (store.key manifest)
  deleteReconciled store manifest

/-- `ModelStore::delete`. -/
def deleteModel (store : ModelStore) (manifest : Manifest) : StoreM Bool := do
  lift (manifest.validate store.ext)
  let handle ← acquireDeleteLock store (store.key manifest)
  holding (store.key manifest) handle (deleteLocked store manifest)

end EmbeddingServer
