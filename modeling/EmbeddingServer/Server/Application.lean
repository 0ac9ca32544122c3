import EmbeddingServer.Models.Store
import EmbeddingServer.Runtime.Registry
import EmbeddingServer.Server.Configuration

/-!
# Lifecycle calls of the application

`EmbeddingApplication::load`, `unload` and `delete`, one after the other: they hold the lifecycle
lock, so nothing but the traffic of requests comes between. Each is a transition of the runtime,
an update of the set `loaded`, and an inspection of the store for the reply. What happens outside
during a load (the pool, the engine, the scheduler) is given by a `LoadOutcome`; the store is
inspected as `status` does, in the state and with the faults it finds.

Locks are never poisoned. The fields of the application that these calls do not read (the
installer, the policy of the preload and the time limits) are left out.
-/

namespace EmbeddingServer

/-! ## The catalog -/

/-- `MAX_MODEL_NAME_BYTES`. -/
def maxModelNameBytes : Nat := 512

/-- `valid_model_name`. -/
def validModelName (value : String) : Bool :=
  !value.isEmpty && value.utf8ByteSize ≤ maxModelNameBytes &&
    Config.trim value.toList = value.toList && !value.toList.any isControl

/-- `ModelCatalog`. -/
structure ModelCatalog where
  manifests : String → Option Manifest
  aliases : String → Option String
  aliasesByModel : String → Option (List String)

/-- `ModelCatalog::resolve`. -/
def ModelCatalog.resolve (catalog : ModelCatalog) (requested : String) : Option Manifest :=
  if validModelName requested then
    (catalog.manifests requested).or ((catalog.aliases requested).bind catalog.manifests)
  else none

/-- `ModelCatalog::aliases_for`. -/
def ModelCatalog.aliasesFor (catalog : ModelCatalog) (canonical : String) : List String :=
  (catalog.aliasesByModel canonical).getD []

/-! ## Errors and replies -/

/-- `ApplicationErrorKind`. -/
inductive ApplicationErrorKind where
  | invalidRequest
  | modelUnavailable
  | overloaded
  | cancelled
  | deadlineExceeded
  | shuttingDown
  | internal
  deriving DecidableEq, Repr

/-- `ApplicationError`. -/
structure ApplicationError where
  kind : ApplicationErrorKind
  publicError : PublicError
  deriving DecidableEq, Repr

/-- `ApplicationError::new`. -/
def ApplicationError.new (kind : ApplicationErrorKind) (code : ErrorCode) : ApplicationError :=
  { kind := kind, publicError := PublicError.forCode code }

/-- `From<LifecycleError>`. -/
def ApplicationError.ofLifecycle : LifecycleError → ApplicationError
  | .shuttingDown => .new .shuttingDown .modelUnavailable
  | .notFound | .loadFailed => .new .modelUnavailable .modelUnavailable
  | .invalidPolicy | .alreadyLoaded | .inUse => .new .invalidRequest .invalidRequest
  | .initializationFailed | .installFailed | .deleteFailed => .new .internal .internal

/-- `catalog_request_error`. -/
def catalogRequestError : ApplicationError :=
  .new .invalidRequest .invalidRequest

/-- `infrastructure_error`. -/
def infrastructureError : ApplicationError :=
  .new .internal .internal

/-- `SemanticStatus`. -/
inductive SemanticStatus where
  | verified
  | unverified
  deriving DecidableEq, Repr

/-- `RuntimeStatus`. -/
inductive RuntimeStatus where
  | catalogOnly
  | onnx
  deriving DecidableEq, Repr

/-- `LoadStatus`. -/
inductive LoadStatus where
  | unloaded
  | loaded
  deriving DecidableEq, Repr

/-- `ModelInfo`. -/
structure ModelInfo where
  canonicalId : String
  revision : String
  aliases : List String
  nativeDimensions : UInt32
  dimensions : List UInt32
  semanticStatus : SemanticStatus
  installationStatus : ModelStatus
  runtimeStatus : RuntimeStatus
  loadStatus : LoadStatus
  deriving DecidableEq, Repr

/-! ## Loading in the runtime -/

/-- What a load meets outside of the registries. -/
structure LoadOutcome where
  /-- There is an executor. -/
  executor : Bool
  /-- The pool takes the job. -/
  accepted : Bool
  /-- The answer of the job; a lost job is a failed load. -/
  job : Except LifecycleError Unit
  /-- The scheduler starts and is not found finished. -/
  started : Bool
  /-- The scheduler is found finished under the lock. -/
  finished : Bool

/-- What comes of the engine and its scheduler, before the publication. -/
def LoadOutcome.engine (outcome : LoadOutcome) (forceStop : Bool) : Except LifecycleError Unit :=
  if !outcome.accepted then .error .inUse
  else if forceStop then .error .shuttingDown
  else
    match outcome.job with
    | .error error => .error error
    | .ok () => if outcome.started then .ok () else .error .loadFailed

namespace Inner

/-- All writes of a critical section. -/
def write (inner : Inner) (updates : List Update) : Inner :=
  Monitor.settle Update.apply updates inner

/-- `RuntimeWorkPermit::drop`. -/
def releasePermit (inner : Inner) : Inner :=
  { inner with admitted := inner.admitted - 1, coordinator := inner.coordinator.release }

/-- An error while the reservation is armed. -/
def unwind (inner : Inner) (id : String) (key : ModelKey) (error : LifecycleError) :
    Except LifecycleError Unit × Inner :=
  (.error error, inner.write (inner.dropReservation id key))

/-- `load_with` from the reservation on. -/
def loadReserved (inner : Inner) (id : String) (key : ModelKey) (outcome : LoadOutcome) :
    Except LifecycleError Unit × Inner :=
  match inner.reserve id key with
  | .error error => inner.unwind id key error
  | .ok updates =>
      let inner := inner.write updates
      match outcome.engine inner.forceStop with
      | .error error => inner.unwind id key error
      | .ok () =>
          match inner.registerReservedEngine id key outcome.finished with
          | .error error => inner.unwind id key error
          | .ok updates => (.ok (), inner.write updates)

/-- `load_onnx` and `load_with`. -/
def loadWith (inner : Inner) (id : String) (outcome : LoadOutcome) :
    Except LifecycleError Unit × Inner :=
  if !outcome.executor then (.error .loadFailed, inner)
  else
    match inner.admitWork with
    | none => (.error .shuttingDown, inner)
    | some updates =>
        let key := inner.nextKey
        let result := ({ inner.write updates with nextKey := key + 1 } : Inner).loadReserved id key
          outcome
        (result.1, result.2.releasePermit)

/-- `ApplicationRuntime::unload`. -/
def unloadModel (inner : Inner) (id : String) : Except LifecycleError Unit × Inner :=
  match inner.unload id with
  | .error error => (.error error, inner)
  | .ok updates => (.ok (), inner.write updates)

end Inner

/-! ## The application -/

/-- What the lifecycle calls read and write of `ApplicationInner`. -/
structure EmbeddingApplication where
  runtime : Inner
  loaded : String → Bool
  preloadPending : String → Bool
  shuttingDown : Bool

/-- The store as an inspection finds it, and how its operations answer. -/
structure Inspection where
  cache : Cache
  choices : Nat → Choice

/-- `self.0.store.status(manifest)`. -/
def Inspection.status (inspection : Inspection) (store : ModelStore) (manifest : Manifest) :
    Except Error ModelStatus :=
  (Program.exec respond inspection.choices (EmbeddingServer.status store manifest).run
    inspection.cache).1

namespace EmbeddingApplication

/-- `EmbeddingApplication::new`. -/
def new : EmbeddingApplication :=
  { runtime := Inner.new
    loaded := fun _ => false
    preloadPending := fun _ => false
    shuttingDown := false }

/-- `ensure_running`. -/
def ensureRunning (app : EmbeddingApplication) : Except ApplicationError Unit :=
  if app.shuttingDown then .error (.ofLifecycle .shuttingDown) else .ok ()

/-- `is_loaded`. -/
def isLoaded (app : EmbeddingApplication) (canonical : String) : Bool :=
  !app.shuttingDown && !app.preloadPending canonical && app.loaded canonical

/-- `model_info`. -/
def modelInfo (app : EmbeddingApplication) (catalog : ModelCatalog) (store : ModelStore)
    (manifest : Manifest) (inspection : Inspection) : Except ApplicationError ModelInfo :=
  match inspection.status store manifest with
  | .error _ => .error infrastructureError
  | .ok installed =>
      .ok
        { canonicalId := manifest.canonicalId
          revision := manifest.revision
          aliases := catalog.aliasesFor manifest.canonicalId
          nativeDimensions := manifest.dimensions.native
          dimensions := manifest.dimensions.matryoshka
          semanticStatus :=
            match manifest.semanticVerification with
            | .verified .. => .verified
            | .unverified _ => .unverified
          installationStatus := installed
          runtimeStatus :=
            match manifest.runtime with
            | .catalogOnly => .catalogOnly
            | .onnx .. => .onnx
          loadStatus := if app.isLoaded manifest.canonicalId then .loaded else .unloaded }

/-- `load_locked`. -/
def loadLocked (app : EmbeddingApplication) (id : String) (outcome : LoadOutcome) :
    Except ApplicationError Unit × EmbeddingApplication :=
  if app.isLoaded id then (.error (.ofLifecycle .alreadyLoaded), app)
  else
    match app.runtime.loadWith id outcome with
    | (.error error, runtime) => (.error (.ofLifecycle error), { app with runtime := runtime })
    | (.ok (), runtime) =>
        if app.shuttingDown then
          (.error (.ofLifecycle .shuttingDown), { app with runtime := (runtime.unloadModel id).2 })
        else
          (.ok (), { app with runtime := runtime, loaded := Function.update app.loaded id true })

/-- The runtime's `unload` with the update of the set `loaded`. -/
def unloadLocked (app : EmbeddingApplication) (id : String) :
    Except ApplicationError Unit × EmbeddingApplication :=
  match app.runtime.unloadModel id with
  | (.error error, runtime) => (.error (.ofLifecycle error), { app with runtime := runtime })
  | (.ok (), runtime) =>
      (.ok (), { app with runtime := runtime, loaded := Function.update app.loaded id false })

/-- The runtime's `delete`, with the answer of the store. -/
def deleteLocked (app : EmbeddingApplication) (id : String) (answer : Except LifecycleError Bool) :
    Except ApplicationError Unit × EmbeddingApplication :=
  match app.runtime.delete id answer with
  | .error error => (.error (.ofLifecycle error), app)
  | .ok _ => (.ok (), app)

/-- What is done under the lifecycle lock. -/
inductive Operation where
  | load (outcome : LoadOutcome)
  | unload
  | delete (answer : Except LifecycleError Bool)

/-- The part of an operation before the reply. -/
def operate (app : EmbeddingApplication) (id : String) :
    Operation → Except ApplicationError Unit × EmbeddingApplication
  | .load outcome => app.loadLocked id outcome
  | .unload => app.unloadLocked id
  | .delete answer => app.deleteLocked id answer

/-- `load`, `unload` and `delete`: they resolve the name, check for a shutdown before and after
they wait for the lock, operate, and reply with what they find in the store. -/
def call (app : EmbeddingApplication) (catalog : ModelCatalog) (store : ModelStore) (model : String)
    (operation : Operation) (inspection : Inspection) :
    Except ApplicationError ModelInfo × EmbeddingApplication :=
  match catalog.resolve model with
  | none => (.error catalogRequestError, app)
  | some manifest =>
      match app.ensureRunning with
      | .error error => (.error error, app)
      | .ok () =>
          match app.operate manifest.canonicalId operation with
          | (.error error, after) => (.error error, after)
          | (.ok (), after) => (after.modelInfo catalog store manifest inspection, after)

/-- `EmbeddingApplication::load`. -/
def load (app : EmbeddingApplication) (catalog : ModelCatalog) (store : ModelStore) (model : String)
    (outcome : LoadOutcome) (inspection : Inspection) :
    Except ApplicationError ModelInfo × EmbeddingApplication :=
  app.call catalog store model (.load outcome) inspection

/-- `EmbeddingApplication::unload`. -/
def unload (app : EmbeddingApplication) (catalog : ModelCatalog) (store : ModelStore)
    (model : String) (inspection : Inspection) :
    Except ApplicationError ModelInfo × EmbeddingApplication :=
  app.call catalog store model .unload inspection

/-- `EmbeddingApplication::delete`. -/
def delete (app : EmbeddingApplication) (catalog : ModelCatalog) (store : ModelStore)
    (model : String) (answer : Except LifecycleError Bool) (inspection : Inspection) :
    Except ApplicationError ModelInfo × EmbeddingApplication :=
  app.call catalog store model (.delete answer) inspection

end EmbeddingApplication

end EmbeddingServer
