import EmbeddingServer.Lib.Monitor
import EmbeddingServer.Runtime.Preflight
import Mathlib.Logic.Function.Basic

/-!
# The registries of the application runtime

`Inner` is the shared state of an `ApplicationRuntime`: the maps of registered models, of
loading reservations, of scheduler tasks and of health entries, the shutdown flag and
flight, and the counters of admitted work. A map is a function into `Option`; a slot is
represented by its key, with its `accepting` flag and lease counter kept beside. The key
counter is a natural number: a run does not live to see `next_key` wrap around.

All operations that change the registries take the `admin` lock first. What each of them
does under the lock is a function from the state it finds to an error or to the list of
its writes, in the order of the source.
-/

namespace EmbeddingServer

/-! ## Health -/

/-- `LifecycleState`. -/
inductive LifecycleState where
  | starting
  | ready
  | draining
  | stopped
  deriving DecidableEq, Repr

/-- `ModelKey`. -/
abbrev ModelKey := Nat

/-- `ModelFailureReason`. -/
inductive ModelFailureReason where
  | missing
  | invalid
  | semanticVerificationPending
  | runtimeInitializationFailed
  deriving DecidableEq, Repr

/-- `ModelState`. -/
inductive ModelState where
  | unloaded
  | loading
  | ready
  | failed (reason : ModelFailureReason)
  deriving DecidableEq, Repr

/-- `ReadinessReason`. -/
inductive ReadinessReason where
  | starting
  | noModelsConfigured
  | noReadyModels
  | draining
  | stopped
  | healthStateUnavailable
  deriving DecidableEq, Repr

/-- `HealthState`, behind `HealthRegistry`. -/
structure HealthState where
  live : Bool
  lifecycle : LifecycleState
  reason : Option ReadinessReason
  models : ModelKey → Option ModelState

namespace HealthState

/-- `HealthRegistry::default`. -/
def default : HealthState :=
  { live := true, lifecycle := .starting, reason := some .starting, models := fun _ => none }

/-- `HealthRegistry::set_model`. -/
def setModel (health : HealthState) (key : ModelKey) (model : ModelState) : HealthState :=
  { health with models := Function.update health.models key (some model) }

/-- `HealthRegistry::remove_model`. -/
def removeModel (health : HealthState) (key : ModelKey) : HealthState :=
  { health with models := Function.update health.models key none }

/-- `HealthRegistry::clear_models`. -/
def clearModels (health : HealthState) : HealthState :=
  { health with models := fun _ => none }

/-- `HealthRegistry::transition`: stopped is terminal, and draining does not return to service. -/
def transition (health : HealthState) (next : LifecycleState) (reason : Option ReadinessReason) :
    HealthState :=
  if health.lifecycle = .stopped then health
  else if health.lifecycle = .draining ∧ (next = .starting ∨ next = .ready) then health
  else
    { health with
      lifecycle := next
      reason := reason
      live := if next = .stopped then false else health.live }

@[simp]
theorem transition_models (health : HealthState) (next : LifecycleState)
    (reason : Option ReadinessReason) : (health.transition next reason).models = health.models := by
  unfold transition
  split
  · rfl
  · split <;> rfl

/-- Stopping always succeeds. -/
theorem transition_stopped (health : HealthState) (reason : Option ReadinessReason) :
    (health.transition .stopped reason).lifecycle = .stopped := by
  unfold transition
  split
  case isTrue h => exact h
  case isFalse h => simp

/-- Stopped is terminal. -/
theorem transition_of_stopped {health : HealthState} (h : health.lifecycle = .stopped)
    (next : LifecycleState) (reason : Option ReadinessReason) :
    health.transition next reason = health := by
  simp [transition, h]

end HealthState

/-! ## Admission -/

/-- `ShutdownState`. -/
inductive ShutdownState where
  | running
  | draining
  | stopped
  deriving DecidableEq, Repr

/-- The state behind a `ShutdownCoordinator`. -/
structure ShutdownCoordinator where
  shutdown : ShutdownState
  active : Nat
  deriving DecidableEq, Repr

namespace ShutdownCoordinator

/-- The count in `ShutdownCoordinator::admit`, once the state was found to be running. -/
def admitWork (coordinator : ShutdownCoordinator) : ShutdownCoordinator :=
  { coordinator with active := coordinator.active + 1 }

/-- `ShutdownCoordinator::begin`. -/
def begin (coordinator : ShutdownCoordinator) : ShutdownCoordinator :=
  let shutdown :=
    if coordinator.shutdown = .running then ShutdownState.draining else coordinator.shutdown
  { coordinator with shutdown := if coordinator.active = 0 then .stopped else shutdown }

/-- `ShutdownCoordinator::force_stop`. -/
def forceStop (coordinator : ShutdownCoordinator) : ShutdownCoordinator :=
  { coordinator with shutdown := .stopped }

/-- `WorkPermit::drop`. -/
def release (coordinator : ShutdownCoordinator) : ShutdownCoordinator :=
  let active := coordinator.active - 1
  { active := active
    shutdown :=
      if active = 0 ∧ coordinator.shutdown = .draining then .stopped else coordinator.shutdown }

end ShutdownCoordinator

/-! ## Shared state -/

/-- Program points of `finish_shutdown`. The flag is the value of `drained`. -/
inductive FinishPc where
  /-- Spawned, with `initially_drained`. -/
  | spawned (initiallyDrained : Bool)
  /-- At the head of the loop of `wait_for_drain`. -/
  | waiting
  /-- The deadline that was read has not passed; `admitted` is read next. -/
  | checked (deadline : Option Nat)
  /-- At the select of `wait_for_drain`, with a timer for the deadline that was read. -/
  | parked (deadline : Option Nat)
  /-- `wait_for_drain` is over. -/
  | waited (drained : Bool)
  /-- The installs were swept; `force_stop` is sent next. -/
  | swept
  /-- Before the slots stop accepting. -/
  | fencing (drained : Bool)
  /-- Before `shutdown.force_stop()`. -/
  | fenced (drained : Bool)
  /-- Before the scheduler tasks are drained. -/
  | coordinated (drained : Bool)
  /-- The scheduler tasks are aborted and awaited. -/
  | aborting (drained : Bool)
  /-- Before the admin lock of the final publication. -/
  | releasing (drained : Bool)
  /-- Inside the section that clears the maps. -/
  | clearing (drained : Bool)
  /-- The maps are cleared; the health entries are next. -/
  | released (drained : Bool)
  /-- The health entries are cleared; the lifecycle is next. -/
  | unlisted (drained : Bool)
  /-- The lifecycle is stopped; the result is sent next. -/
  | stopped (drained : Bool)
  /-- The result was sent. -/
  | finished (drained : Bool)
  /-- The executor dropped the task before it sent a result. -/
  | lost
  deriving DecidableEq, Repr

/-- `ShutdownFlight`, with the program point of its task. An absent deadline never passes. -/
structure ShutdownFlight where
  completion : Option Bool
  deadline : Option Nat
  task : FinishPc
  deriving DecidableEq, Repr

/-- The four registries and the shutdown flag. -/
structure Registry where
  models : String → Option ModelKey
  loading : String → Option ModelKey
  schedulers : ModelKey → Bool
  health : HealthState
  draining : Bool

/-- `Inner`: the registries, and what else the operations of the runtime share. -/
structure Inner where
  registry : Registry
  coordinator : ShutdownCoordinator
  nextKey : Nat
  forceStop : Bool
  admitted : Nat
  flight : Option ShutdownFlight
  accepting : ModelKey → Bool
  leases : ModelKey → Nat

/-- `ApplicationRuntime::new`. -/
def Inner.new : Inner :=
  { registry :=
      { models := fun _ => none
        loading := fun _ => none
        schedulers := fun _ => false
        health := HealthState.default.transition .ready none
        draining := false }
    coordinator := { shutdown := .running, active := 0 }
    nextKey := 1
    forceStop := false
    admitted := 0
    flight := none
    accepting := fun _ => false
    leases := fun _ => 0 }

/-! ## Writes -/

/-- A write to the registries. -/
inductive RegistryUpdate where
  | insertModel (id : String) (key : ModelKey)
  | removeModel (id : String)
  | clearModels
  | insertLoading (id : String) (key : ModelKey)
  | removeLoading (id : String)
  | clearLoading
  | insertScheduler (key : ModelKey)
  | removeScheduler (key : ModelKey)
  | setHealth (key : ModelKey) (state : ModelState)
  | removeHealth (key : ModelKey)
  | transition (next : LifecycleState) (reason : Option ReadinessReason)
  | drain

/-- The registries after a write to them. -/
def RegistryUpdate.apply (registry : Registry) : RegistryUpdate → Registry
  | .insertModel id key =>
      { registry with models := Function.update registry.models id (some key) }
  | .removeModel id => { registry with models := Function.update registry.models id none }
  | .clearModels => { registry with models := fun _ => none }
  | .insertLoading id key =>
      { registry with loading := Function.update registry.loading id (some key) }
  | .removeLoading id => { registry with loading := Function.update registry.loading id none }
  | .clearLoading => { registry with loading := fun _ => none }
  | .insertScheduler key =>
      { registry with schedulers := Function.update registry.schedulers key true }
  | .removeScheduler key =>
      { registry with schedulers := Function.update registry.schedulers key false }
  | .setHealth key state => { registry with health := registry.health.setModel key state }
  | .removeHealth key => { registry with health := registry.health.removeModel key }
  | .transition next reason => { registry with health := registry.health.transition next reason }
  | .drain => { registry with draining := true }

/-- A write made under the admin lock. -/
inductive Update where
  | registry (update : RegistryUpdate)
  /-- `shutdown.admit()`. -/
  | admitWork
  /-- `admitted.fetch_add(1)`. -/
  | count
  /-- `accepting.store(..)` of a slot: true in a new slot. -/
  | accepting (key : ModelKey) (value : Bool)
  /-- `shutdown.begin()`. -/
  | begin
  /-- The flight of the first shutdown: `admitted` is read, the task spawned. -/
  | openFlight (deadline : Option Nat)
  /-- `send_if_modified` of a later shutdown. -/
  | tighten (deadline : Option Nat)

/-- The deadline that a later shutdown leaves. -/
def tightened : Option Nat → Option Nat → Option Nat
  | none, some requested => some requested
  | some current, some requested => some (min current requested)
  | current, none => current

/-- What a write does to the shared state. -/
def Update.apply (inner : Inner) : Update → Inner
  | .registry update => { inner with registry := update.apply inner.registry }
  | .admitWork => { inner with coordinator := inner.coordinator.admitWork }
  | .count => { inner with admitted := inner.admitted + 1 }
  | .accepting key value =>
      { inner with accepting := Function.update inner.accepting key value }
  | .begin => { inner with coordinator := inner.coordinator.begin }
  | .openFlight deadline =>
      { inner with
        flight := some
          { completion := none, deadline := deadline, task := .spawned (inner.admitted == 0) } }
  | .tighten deadline =>
      { inner with
        flight := inner.flight.map fun flight =>
          { flight with deadline := tightened flight.deadline deadline } }

/-- What a write does to the registries. -/
def Update.onRegistry (registry : Registry) : Update → Registry
  | .registry update => update.apply registry
  | _ => registry

@[simp]
theorem Update.apply_registry (inner : Inner) (update : Update) :
    (update.apply inner).registry = update.onRegistry inner.registry := by
  cases update <;> rfl

@[simp]
theorem Update.apply_next_key (inner : Inner) (update : Update) :
    (update.apply inner).nextKey = inner.nextKey := by
  cases update <;> rfl

/-! ## Critical sections -/

namespace Inner

/-- The part of `admit_work` under the lock, with `admit_work_locked`. -/
def admitWork (inner : Inner) : Option (List Update) :=
  if inner.registry.draining then none
  else if inner.coordinator.shutdown = .running then some [.admitWork, .count]
  else none

/-- The reservation in `load_with`. -/
def reserve (inner : Inner) (id : String) (key : ModelKey) : Except LifecycleError (List Update) :=
  if inner.registry.draining then .error .shuttingDown
  else if (inner.registry.models id).isSome || (inner.registry.loading id).isSome then
    .error .alreadyLoaded
  else
    .ok [.registry (.insertLoading id key), .registry (.setHealth key .loading)]

/-- The publication in `register_reserved_engine`; `finished` tells whether the scheduler task
was found to be finished. -/
def registerReservedEngine (inner : Inner) (id : String) (key : ModelKey) (finished : Bool) :
    Except LifecycleError (List Update) :=
  if inner.registry.draining then .error .shuttingDown
  else if (inner.registry.models id).isSome then .error .alreadyLoaded
  else if inner.registry.loading id ≠ some key then .error .loadFailed
  else if finished then .error .loadFailed
  else
    .ok [.accepting key true, .registry (.insertScheduler key), .registry (.insertModel id key),
      .registry (.removeLoading id), .registry (.setHealth key .ready)]

/-- `LoadReservation::drop` of an armed reservation. -/
def dropReservation (inner : Inner) (id : String) (key : ModelKey) : List Update :=
  if inner.registry.loading id = some key then
    [.registry (.removeLoading id), .registry (.removeHealth key)]
  else [.registry (.removeHealth key)]

/-- `register_engine` under the lock; `finished` as above. -/
def registerEngine (inner : Inner) (id : String) (key : ModelKey) (finished : Bool) :
    Except LifecycleError (List Update) :=
  if inner.registry.draining then .error .shuttingDown
  else if (inner.registry.models id).isSome || (inner.registry.loading id).isSome then
    .error .alreadyLoaded
  else if finished then .error .loadFailed
  else
    .ok [.accepting key true, .registry (.insertScheduler key), .registry (.insertModel id key),
      .registry (.setHealth key .ready)]

/-- `unload` under the lock. -/
def unload (inner : Inner) (id : String) : Except LifecycleError (List Update) :=
  if inner.registry.draining then .error .shuttingDown
  else
    match inner.registry.models id with
    | none => .error .notFound
    | some key =>
        if inner.leases key ≠ 0 then .error .inUse
        else
          .ok [.accepting key false, .registry (.removeModel id),
            .registry (.removeScheduler key), .registry (.removeHealth key)]

/-- `delete` under the lock, with the answer of the store. -/
def delete (inner : Inner) (id : String) (deleted : Except LifecycleError Bool) :
    Except LifecycleError Bool :=
  if inner.registry.draining then .error .shuttingDown
  else if (inner.registry.models id).isSome || (inner.registry.loading id).isSome then
    .error .inUse
  else deleted

/-- `shutdown` under the lock: join the flight, or set the fence and open one. -/
def beginShutdown (inner : Inner) (deadline : Option Nat) : List Update :=
  match inner.flight with
  | some _ => [.tighten deadline]
  | none =>
      [.registry .drain, .registry (.transition .draining (some .draining)), .begin,
        .openFlight deadline]

/-- The last section of `finish_shutdown`. -/
def releaseRegistries : List Update :=
  [.registry .clearModels, .registry .clearLoading]

variable {inner : Inner} {id : String} {key : ModelKey} {finished : Bool} {updates : List Update}

/-- When and what `admit_work` writes. -/
theorem admit_work_some (h : inner.admitWork = some updates) :
    inner.registry.draining = false ∧ inner.coordinator.shutdown = .running ∧
      updates = [.admitWork, .count] := by
  unfold admitWork at h
  split at h
  · cases h
  · split at h
    case isTrue hdraining hrunning =>
      cases h
      exact ⟨by simpa using hdraining, hrunning, rfl⟩
    case isFalse => cases h

/-- When and what a load reserves. -/
theorem reserve_ok (h : inner.reserve id key = .ok updates) :
    inner.registry.draining = false ∧ inner.registry.models id = none ∧
      inner.registry.loading id = none ∧
      updates = [.registry (.insertLoading id key), .registry (.setHealth key .loading)] := by
  unfold reserve at h
  split at h
  · cases h
  · split at h
    · cases h
    case isFalse hdraining hfree =>
      cases h
      simpa using And.intro hdraining hfree

/-- When and what a load publishes. -/
theorem register_reserved_engine_ok
    (h : inner.registerReservedEngine id key finished = .ok updates) :
    inner.registry.draining = false ∧ inner.registry.models id = none ∧
      inner.registry.loading id = some key ∧
      updates = [.accepting key true, .registry (.insertScheduler key),
        .registry (.insertModel id key), .registry (.removeLoading id),
        .registry (.setHealth key .ready)] := by
  unfold registerReservedEngine at h
  split at h
  · cases h
  · split at h
    · cases h
    · split at h
      · cases h
      · split at h
        · cases h
        case isFalse hdraining hmodel hloading _ =>
          cases h
          simpa using And.intro hdraining (And.intro hmodel hloading)

/-- When and what a registration publishes. -/
theorem register_engine_ok (h : inner.registerEngine id key finished = .ok updates) :
    inner.registry.draining = false ∧ inner.registry.models id = none ∧
      inner.registry.loading id = none ∧
      updates = [.accepting key true, .registry (.insertScheduler key),
        .registry (.insertModel id key), .registry (.setHealth key .ready)] := by
  unfold registerEngine at h
  split at h
  · cases h
  · split at h
    · cases h
    · split at h
      · cases h
      case isFalse hdraining hfree _ =>
        cases h
        simpa using And.intro hdraining hfree

/-- When and what an unload withdraws. -/
theorem unload_ok (h : inner.unload id = .ok updates) :
    inner.registry.draining = false ∧ ∃ key, inner.registry.models id = some key ∧
      inner.leases key = 0 ∧
      updates = [.accepting key false, .registry (.removeModel id),
        .registry (.removeScheduler key), .registry (.removeHealth key)] := by
  unfold unload at h
  split at h
  · cases h
  case isFalse hdraining =>
    split at h
    · cases h
    case h_2 key hkey =>
      split at h
      · cases h
      case isFalse hleases =>
        cases h
        exact ⟨by simpa using hdraining, key, hkey, by simpa using hleases, rfl⟩

end Inner

end EmbeddingServer
