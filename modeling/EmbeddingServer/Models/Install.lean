import EmbeddingServer.Models.Store

/-!
# The installer

`install.rs`: downloading the artifacts of a manifest into the staging directory and
promoting the result. The server's answers, the request to cancel and the race for the
commit gate are decided from outside at the primitives `httpGet`, `httpChunk`, `poll` and
`beginCommit`.
-/

namespace EmbeddingServer

/-- `InstallOptions`. -/
structure InstallOptions where
  offline : Bool
  allowedOrigins : List Url
  maxRedirects : Nat
  maxArtifactBytes : Nat
  maxArtifacts : Nat
  maxTotalArtifactBytes : Nat

/-- `Installer`. `chunks` is the number of pieces in which a response body may arrive. -/
structure Installer where
  store : ModelStore
  options : InstallOptions
  chunks : Nat

/-- The loop of `Installer::validate_install_size`. -/
def validateSizes (options : InstallOptions) : List Artifact → Nat → Except Error Nat
  | [], total => .ok total
  | artifact :: rest, total =>
      if options.maxArtifactBytes < artifact.size.toNat then
        .error (.sizeLimit options.maxArtifactBytes artifact.size.toNat)
      else
        match Checked.add wordBits total artifact.size.toNat with
        | none => .error (.invalid "aggregate artifact size overflow")
        | some total => validateSizes options rest total

/-- `Installer::validate_install_size`. -/
def validateInstallSize (options : InstallOptions) (manifest : Manifest) : Except Error Unit := do
  rejectIf (options.maxArtifacts < manifest.artifacts.length)
    "manifest exceeds configured artifact count"
  let total ← validateSizes options manifest.artifacts 0
  if options.maxTotalArtifactBytes < total then
    throw (.sizeLimit options.maxTotalArtifactBytes total)

/-- `Installer::ensure_allowed`. -/
def ensureAllowed (options : InstallOptions) (candidate : Url) : Except Error Unit :=
  if options.allowedOrigins.any fun origin =>
      origin.scheme = candidate.scheme && origin.host = candidate.host &&
        origin.port = candidate.port then
    .ok ()
  else .error (.originNotAllowed candidate.origin)

/-- `cancel.is_cancelled()`. -/
def isCancelRequested : StoreM Bool := fs .poll

/-- `if cancel.is_cancelled() { return Err(Error::Cancelled) }`. -/
def stopIfCancelled : StoreM Unit := do
  let stop ← isCancelRequested
  failIf (stop = true) .cancelled

/-- One request of `Installer::download`. -/
def sendRequest (installer : Installer) (url : Url) : StoreM Response := do
  lift (ensureAllowed installer.options url)
  stopIfCancelled
  match ← fs (.httpGet url) with
  | .error kind => throw (.http kind)
  | .ok response =>
      -- The request and the wait for cancellation are polled together.
      stopIfCancelled
      pure response

/-- The target of a redirect. -/
def redirectTarget (installer : Installer) (url : Url) (response : Response) : Except Error Url :=
  match response.location with
  | none => .error (.invalid "redirect omitted Location")
  | some none => .error (.invalid "redirect Location is invalid")
  | some (some location) =>
      match installer.store.ext.joinUrl url location with
      | none => .error (.invalid "redirect URL is invalid")
      | some target => .ok target

/-- The request loop of `Installer::download`; the argument counts the redirects still
allowed. -/
def followRedirects (installer : Installer) : Nat → Url → StoreM Response
  | remaining, url => do
      let response ← sendRequest installer url
      if 300 ≤ response.status ∧ response.status < 400 then
        match remaining with
        | 0 => invalid "redirect limit exceeded"
        | remaining + 1 =>
            let target ← lift (redirectTarget installer url response)
            followRedirects installer remaining target
      else if response.status ≠ 200 then
        invalid ("artifact server returned HTTP " ++ toString response.status)
      else pure response

/-- `validate_content_length`. -/
def validateContentLength (response : Response) (expectedSize : Nat) : Except Error Unit :=
  match response.contentLength with
  | some length => if expectedSize < length then .error (.sizeLimit expectedSize length) else .ok ()
  | none => .ok ()

/-- The body loop of `Installer::download`; the bytes received so far. -/
def receiveBody (installer : Installer) (loc : Loc) (path : RelPath) (expectedSize : Nat) :
    Nat → List UInt8 → StoreM (List UInt8)
  | 0, _ => throw (.http .body)
  | fuel + 1, received => do
      stopIfCancelled
      match ← fs .httpChunk with
      | .error kind => throw (.http kind)
      | .ok none => pure received
      | .ok (some chunk) =>
          let total := received.length + chunk.length
          if expectedSize < total ∨ installer.options.maxArtifactBytes < total then
            throw (.sizeLimit (min expectedSize installer.options.maxArtifactBytes) total)
          else
            fs (.append loc path chunk)
            receiveBody installer loc path expectedSize fuel (received ++ chunk)

/-- The part of `Installer::download` that writes the body to the staged file. -/
def storeBody (installer : Installer) (loc : Loc) (artifact : Artifact) : StoreM Unit := do
  let path := artifact.relative
  let expectedSize := artifact.size.toNat
  createNewContainedFile loc path
  let received ← receiveBody installer loc path expectedSize (installer.chunks + 1) []
  fs (.syncEntry loc path)
  let metadata ← pathMetadata loc path
  failIf (received.length ≠ expectedSize) (.sizeLimit expectedSize received.length)
  failIf (installer.store.ext.sha256 received ≠ artifact.sha256)
    (.hashMismatch artifact.sha256 (installer.store.ext.sha256 received))
  failIf (metadata ≠ (.file, expectedSize)) (.invalid "staged artifact changed while writing")
  revalidateContainedPath loc path

/-- `Installer::download`. -/
def download (installer : Installer) (loc : Loc) (artifact : Artifact) : StoreM Unit := do
  match installer.store.ext.parseUrl artifact.url with
  | none => invalid "invalid artifact URL"
  | some url =>
      let response ← followRedirects installer installer.options.maxRedirects url
      lift (validateContentLength response artifact.size.toNat)
      storeBody installer loc artifact

/-- The loop of `Installer::install_transaction` over the artifacts. -/
def downloadArtifacts (installer : Installer) (loc : Loc) : List Artifact → StoreM Unit
  | [] => pure ()
  | artifact :: rest => do
      createContainedParentDirectories loc artifact.relative
      download installer loc artifact
      downloadArtifacts installer loc rest

/-- The retry loop of `acquire_lock` in `install.rs`. -/
def lockForInstall (store : ModelStore) (key : String) : Nat → StoreM Nat
  | 0 => throw .busy
  | attempts + 1 => do
      match ← attempt (do fs (.openLock key); fs (.tryLock store.task key true)) with
      | .ok handle => pure handle
      | .error (.io .wouldBlock) =>
          stopIfCancelled
          lockForInstall store key attempts
      | .error error => throw error

/-- `acquire_lock` of `install.rs`. -/
def acquireInstallLock (store : ModelStore) (key : String) : StoreM Nat := do
  fs (.createRoot .locks)
  lockForInstall store key (store.attempts + 1)

/-- The durable phase of `Installer::install_transaction`, after the commit gate. -/
def commitInstall (installer : Installer) (manifest : Manifest) : StoreM Unit := do
  let store := installer.store
  let key := store.key manifest
  let loc := Loc.staging key
  let encoded ← lift (manifest.toJson store.ext)
  createNewContainedFile loc manifestFile
  fs (.append loc manifestFile encoded)
  fs (.syncEntry loc manifestFile)
  let metadata ← pathMetadata loc manifestFile
  failIf (metadata ≠ (.file, encoded.length)) (.invalid "staged manifest changed while writing")
  revalidateContainedPath loc manifestFile
  promote store key

/-- `Installer::install_transaction` under its lock; the status if the model was there
already. -/
def installLocked (installer : Installer) (manifest : Manifest) : StoreM (Option ModelStatus) := do
  let store := installer.store
  let key := store.key manifest
  reconcileRepair store key
  let existing ← statusWithCancel store manifest isCancelRequested
  if existing.isInstalled then pure (some existing)
  else
    prepareStaging key
    downloadArtifacts installer (.staging key) manifest.artifacts
    stopIfCancelled
    let crossed ← fs .beginCommit
    failIf (crossed = false) .cancelled
    commitInstall installer manifest
    pure none

/-- `Installer::install_transaction`. -/
def installTransaction (installer : Installer) (manifest : Manifest) : StoreM ModelStatus := do
  let store := installer.store
  lift (manifest.validate store.ext)
  lift (validateInstallSize installer.options manifest)
  let existing ← statusWithCancel store manifest isCancelRequested
  if existing.isInstalled then pure existing
  else
    failIf (installer.options.offline = true) .offline
    stopIfCancelled
    let handle ← acquireInstallLock store (store.key manifest)
    match ← holding (store.key manifest) handle (installLocked installer manifest) with
    | some existing => pure existing
    | none => status store manifest

end EmbeddingServer
