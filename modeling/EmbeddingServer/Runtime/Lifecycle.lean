import EmbeddingServer.Lib.Transition
import EmbeddingServer.Runtime.Registry

/-!
# The lifecycle machine of the application runtime

Any number of calls run against one runtime: loads, registrations, unloads, deletions,
embeddings and installations, and shutdowns with the task that finishes them. A call is at
one of its program points: the places where the source takes the admin lock, waits, or
writes a shared field. The future of a call can be dropped where the source awaits; what
its guards then do is part of the machine.

A call that takes the admin lock decides there what it will write (`Section`) and then
writes one field at a time (`Step.write`) until it leaves. Whatever it reads for the
decision changes only under the lock, except lease counters, which are read once. Steps
outside the lock are `Move`, those of the task of a shutdown `Finish`.

Loads and shutdowns can come through the `EmbeddingApplication`, which records loaded models
in a set of its own. The runtime has an owner as long as the machine runs, so the task of a
shutdown finds it alive; locks are never poisoned.
-/

namespace EmbeddingServer.Lifecycle

/-- Who calls the runtime. -/
inductive Origin where
  | direct
  /-- `EmbeddingApplication`. -/
  | application
  deriving DecidableEq, Repr

/-- How the future of a call ends. -/
inductive Ending where
  | returned (result : Except LifecycleError Unit)
  | dropped

/-- The call loaded its model. -/
def Ending.isOk : Ending → Bool
  | .returned (.ok _) => true
  | _ => false

/-- Program points of `load_with`, and of `EmbeddingApplication::load_locked` after it. -/
inductive LoadPc where
  | called
  /-- The work permit is held. -/
  | permitted
  /-- The armed `LoadReservation` exists; the section of the reservation is next. -/
  | allocated (key : ModelKey)
  | reserved (key : ModelKey)
  /-- The job is in the pool: the select over the forced stop and its result. -/
  | submitted (key : ModelKey)
  /-- The engine was received; `publish` spawns the scheduler next. -/
  | loaded (key : ModelKey)
  /-- `startup.await`. -/
  | starting (key : ModelKey)
  | started (key : ModelKey)
  /-- An armed reservation is being dropped. -/
  | unwinding (key : ModelKey) (ending : Ending)
  /-- `RuntimeWorkPermit::drop`, the count of admitted work first. -/
  | releasing (key : ModelKey) (ending : Ending)
  | released (key : ModelKey) (ending : Ending)
  /-- The end of `load_with`; the key is absent if the load was refused before it took one. -/
  | finished (key : Option ModelKey) (ending : Ending)
  /-- `load_locked`: before `loaded.write()`. -/
  | recording (key : ModelKey)
  /-- The lock of the loaded set is held, `shutting_down` is read next. -/
  | recordLocked (key : ModelKey)
  /-- The lock is held and `shutting_down` was false. -/
  | recordChecked (key : ModelKey)
  /-- `shutting_down` was true and the lock is free again: the model is unloaded. -/
  | retracting (key : ModelKey)
  /-- `load_locked` has returned. -/
  | recorded (key : ModelKey) (result : Except LifecycleError Unit)

/-- Program points of the calls that do everything in one section. -/
inductive SectionPc (α : Type) where
  | called
  | finished (result : Except LifecycleError α)

/-- Work that is admitted and does not touch the registries of models. -/
inductive WorkKind where
  | embed
  | install
  deriving DecidableEq, Repr

/-- Program points of admitted work. -/
inductive WorkPc where
  | called
  | refused
  | active
  | released
  | finished
  deriving DecidableEq, Repr

/-- Program points of `shutdown`, inside `EmbeddingApplication::shutdown_with_timeout` or not. -/
inductive ShutdownPc where
  | called (deadline : Option Nat)
  /-- Before the admin lock. -/
  | joining (deadline : Option Nat)
  /-- The loop over the completion of the flight. -/
  | waiting
  | returned (result : Bool)
  /-- `shutdown_with_timeout` has cleared the loaded set. -/
  | cleared (result : Bool)
  | dropped
  deriving DecidableEq, Repr

/-- A call, at its program point. -/
inductive Call where
  | absent
  | load (origin : Origin) (id : String) (pc : LoadPc)
  | register (id : String) (pc : SectionPc Unit)
  | unload (id : String) (pc : SectionPc Unit)
  | delete (id : String) (pc : SectionPc Bool)
  | work (kind : WorkKind) (pc : WorkPc)
  | shutdown (origin : Origin) (pc : ShutdownPc)
  /-- Inside the section of the admin lock; what the call is after it. -/
  | holding (next : Call)

/-- Who takes a step. -/
inductive Actor where
  | call (task : Nat)
  /-- The task of the shutdown flight. -/
  | finisher
  /-- The clock, and the users of leases and of the loaded set. -/
  | environment
  deriving DecidableEq, Repr

/-- The state of the machine. The holder of the admin lock comes with its outstanding writes. -/
structure State where
  inner : Inner
  admin : Option (Actor × List Update)
  calls : Nat → Call
  clock : Nat
  loaded : String → Bool
  /-- The holder of the write lock of `loaded`. -/
  loadedLock : Option Nat
  shuttingDown : Bool

/-- A new runtime under a new application. -/
def initial : State :=
  { inner := Inner.new
    admin := none
    calls := fun _ => .absent
    clock := 0
    loaded := fun _ => false
    loadedLock := none
    shuttingDown := false }

/-- A call as it begins. -/
inductive Begins : Call → Prop where
  | load (origin : Origin) (id : String) : Begins (.load origin id .called)
  | register (id : String) : Begins (.register id .called)
  | unload (id : String) : Begins (.unload id .called)
  | delete (id : String) : Begins (.delete id .called)
  | work (kind : WorkKind) : Begins (.work kind .called)
  | shutdown (origin : Origin) (deadline : Option Nat) :
      Begins (.shutdown origin (.called deadline))

/-- The critical section of a call that takes the admin lock: how many keys it takes from the
counter, what it will write, and what the call is when it leaves. -/
inductive Section (inner : Inner) : Call → Nat → List Update → Call → Prop where
  | loadRefused {origin : Origin} {id : String} (h : inner.admitWork = none) :
      Section inner (.load origin id .called) 0 []
        (.load origin id (.finished none (.returned (.error .shuttingDown))))
  | loadAdmitted {origin : Origin} {id : String} {updates : List Update}
      (h : inner.admitWork = some updates) :
      Section inner (.load origin id .called) 0 updates (.load origin id .permitted)
  | notReserved {origin : Origin} {id : String} {key : ModelKey} {error : LifecycleError}
      (h : inner.reserve id key = .error error) :
      Section inner (.load origin id (.allocated key)) 0 []
        (.load origin id (.unwinding key (.returned (.error error))))
  | reserved {origin : Origin} {id : String} {key : ModelKey} {updates : List Update}
      (h : inner.reserve id key = .ok updates) :
      Section inner (.load origin id (.allocated key)) 0 updates
        (.load origin id (.reserved key))
  | notPublished {origin : Origin} {id : String} {key : ModelKey} (finished : Bool)
      {error : LifecycleError} (h : inner.registerReservedEngine id key finished = .error error) :
      Section inner (.load origin id (.started key)) 0 []
        (.load origin id (.unwinding key (.returned (.error error))))
  | published {origin : Origin} {id : String} {key : ModelKey} (finished : Bool)
      {updates : List Update} (h : inner.registerReservedEngine id key finished = .ok updates) :
      Section inner (.load origin id (.started key)) 0 updates
        (.load origin id (.releasing key (.returned (.ok ()))))
  | unwound {origin : Origin} {id : String} {key : ModelKey} {ending : Ending} :
      Section inner (.load origin id (.unwinding key ending)) 0 (inner.dropReservation id key)
        (.load origin id (.releasing key ending))
  | notRetracted {origin : Origin} {id : String} {key : ModelKey} {error : LifecycleError}
      (h : inner.unload id = .error error) :
      Section inner (.load origin id (.retracting key)) 0 []
        (.load origin id (.recorded key (.error .shuttingDown)))
  | retracted {origin : Origin} {id : String} {key : ModelKey} {updates : List Update}
      (h : inner.unload id = .ok updates) :
      Section inner (.load origin id (.retracting key)) 0 updates
        (.load origin id (.recorded key (.error .shuttingDown)))
  -- The key is taken once the id was found free, also when the scheduler turns out finished.
  | notRegistered {id : String} (hid : isBlank id = false) (finished : Bool)
      {error : LifecycleError} (h : inner.registerEngine id inner.nextKey finished = .error error) :
      Section inner (.register id .called) (if error = .loadFailed then 1 else 0) []
        (.register id (.finished (.error error)))
  | registered {id : String} (hid : isBlank id = false) (finished : Bool) {updates : List Update}
      (h : inner.registerEngine id inner.nextKey finished = .ok updates) :
      Section inner (.register id .called) 1 updates (.register id (.finished (.ok ())))
  | notUnloaded {id : String} {error : LifecycleError} (h : inner.unload id = .error error) :
      Section inner (.unload id .called) 0 [] (.unload id (.finished (.error error)))
  | unloaded {id : String} {updates : List Update} (h : inner.unload id = .ok updates) :
      Section inner (.unload id .called) 0 updates (.unload id (.finished (.ok ())))
  | deleted {id : String} (answer : Except LifecycleError Bool) :
      Section inner (.delete id .called) 0 [] (.delete id (.finished (inner.delete id answer)))
  | workRefused {kind : WorkKind} (h : inner.admitWork = none) :
      Section inner (.work kind .called) 0 [] (.work kind .refused)
  -- An installation also takes an operation number from the counter of keys.
  | workAdmitted {kind : WorkKind} {updates : List Update} (h : inner.admitWork = some updates) :
      Section inner (.work kind .called) (if kind = .install then 1 else 0) updates
        (.work kind .active)
  | shutdown {origin : Origin} {deadline : Option Nat} :
      Section inner (.shutdown origin (.joining deadline)) 0 (inner.beginShutdown deadline)
        (.shutdown origin .waiting)

/-- A step of a call outside the locks. -/
inductive Move (inner : Inner) : Call → Inner → Call → Prop where
  /-- No executor, or `EmbeddingApplication` refuses the load before the runtime sees it. -/
  | loadRejected {origin : Origin} {id : String} (error : LifecycleError) :
      Move inner (.load origin id .called) inner
        (.load origin id (.finished none (.returned (.error error))))
  /-- A blank id, or no executor. -/
  | registerRejected {id : String} :
      Move inner (.register id .called) inner (.register id (.finished (.error .loadFailed)))
  /-- An id that is not the manifest's. -/
  | deleteRejected {id : String} :
      Move inner (.delete id .called) inner (.delete id (.finished (.error .deleteFailed)))
  | allocate {origin : Origin} {id : String} :
      Move inner (.load origin id .permitted) { inner with nextKey := inner.nextKey + 1 }
        (.load origin id (.allocated inner.nextKey))
  | poolFull {origin : Origin} {id : String} {key : ModelKey} :
      Move inner (.load origin id (.reserved key)) inner
        (.load origin id (.unwinding key (.returned (.error .inUse))))
  | submit {origin : Origin} {id : String} {key : ModelKey} :
      Move inner (.load origin id (.reserved key)) inner (.load origin id (.submitted key))
  | forceStopped {origin : Origin} {id : String} {key : ModelKey} (h : inner.forceStop = true) :
      Move inner (.load origin id (.submitted key)) inner
        (.load origin id (.unwinding key (.returned (.error .shuttingDown))))
  /-- The job answered with an error, or was lost. -/
  | jobFailed {origin : Origin} {id : String} {key : ModelKey} (error : LifecycleError) :
      Move inner (.load origin id (.submitted key)) inner
        (.load origin id (.unwinding key (.returned (.error error))))
  | jobDone {origin : Origin} {id : String} {key : ModelKey} :
      Move inner (.load origin id (.submitted key)) inner (.load origin id (.loaded key))
  | spawn {origin : Origin} {id : String} {key : ModelKey} :
      Move inner (.load origin id (.loaded key)) inner (.load origin id (.starting key))
  | notStarted {origin : Origin} {id : String} {key : ModelKey} :
      Move inner (.load origin id (.starting key)) inner
        (.load origin id (.unwinding key (.returned (.error .loadFailed))))
  | startedUp {origin : Origin} {id : String} {key : ModelKey} :
      Move inner (.load origin id (.starting key)) inner (.load origin id (.started key))
  | schedulerFinished {origin : Origin} {id : String} {key : ModelKey} :
      Move inner (.load origin id (.started key)) inner
        (.load origin id (.unwinding key (.returned (.error .loadFailed))))
  /-- The future is dropped while it waits for the job. -/
  | droppedSubmitted {origin : Origin} {id : String} {key : ModelKey} :
      Move inner (.load origin id (.submitted key)) inner
        (.load origin id (.unwinding key .dropped))
  /-- The future is dropped while it waits for the scheduler to start. -/
  | droppedStarting {origin : Origin} {id : String} {key : ModelKey} :
      Move inner (.load origin id (.starting key)) inner
        (.load origin id (.unwinding key .dropped))
  | releaseCount {origin : Origin} {id : String} {key : ModelKey} {ending : Ending} :
      Move inner (.load origin id (.releasing key ending))
        { inner with admitted := inner.admitted - 1 } (.load origin id (.released key ending))
  | releasePermit {origin : Origin} {id : String} {key : ModelKey} {ending : Ending} :
      Move inner (.load origin id (.released key ending))
        { inner with coordinator := inner.coordinator.release }
        (.load origin id
          (if origin = .application ∧ ending.isOk then .recording key
          else .finished (some key) ending))
  | releaseWorkCount {kind : WorkKind} :
      Move inner (.work kind .active) { inner with admitted := inner.admitted - 1 }
        (.work kind .released)
  | releaseWorkPermit {kind : WorkKind} :
      Move inner (.work kind .released)
        { inner with coordinator := inner.coordinator.release } (.work kind .finished)
  | directShutdown {deadline : Option Nat} :
      Move inner (.shutdown .direct (.called deadline)) inner
        (.shutdown .direct (.joining deadline))
  | completed {origin : Origin} {flight : ShutdownFlight} {result : Bool}
      (h : inner.flight = some flight) (hresult : flight.completion = some result) :
      Move inner (.shutdown origin .waiting) inner (.shutdown origin (.returned result))
  /-- The completion channel is closed without a result. -/
  | abandoned {origin : Origin} {flight : ShutdownFlight} (h : inner.flight = some flight)
      (hlost : flight.task = .lost) :
      Move inner (.shutdown origin .waiting) inner (.shutdown origin (.returned false))
  | droppedShutdown {origin : Origin} :
      Move inner (.shutdown origin .waiting) inner (.shutdown origin .dropped)

/-- A step of the task of the flight outside the admin lock. -/
inductive Finish (clock : Nat) (inner : Inner) : ShutdownFlight → Inner →
    ShutdownFlight → Prop where
  | drainedAtOnce {flight : ShutdownFlight} (h : flight.task = .spawned true) :
      Finish clock inner flight inner { flight with task := .waited true }
  | wait {flight : ShutdownFlight} (h : flight.task = .spawned false) :
      Finish clock inner flight inner { flight with task := .waiting }
  | deadlinePassed {flight : ShutdownFlight} {deadline : Nat} (h : flight.task = .waiting)
      (hdeadline : flight.deadline = some deadline) (hpassed : deadline ≤ clock) :
      Finish clock inner flight inner { flight with task := .waited false }
  | deadlineOpen {flight : ShutdownFlight} (h : flight.task = .waiting)
      (hopen : ∀ deadline, flight.deadline = some deadline → clock < deadline) :
      Finish clock inner flight inner { flight with task := .checked flight.deadline }
  | drained {flight : ShutdownFlight} {deadline : Option Nat} (h : flight.task = .checked deadline)
      (hzero : inner.admitted = 0) :
      Finish clock inner flight inner { flight with task := .waited true }
  | park {flight : ShutdownFlight} {deadline : Option Nat} (h : flight.task = .checked deadline)
      (hbusy : inner.admitted ≠ 0) :
      Finish clock inner flight inner { flight with task := .parked deadline }
  /-- The deadline changed, or the latch was notified. -/
  | woken {flight : ShutdownFlight} {deadline : Option Nat} (h : flight.task = .parked deadline) :
      Finish clock inner flight inner { flight with task := .waiting }
  | timer {flight : ShutdownFlight} {deadline : Nat} (h : flight.task = .parked (some deadline))
      (hpassed : deadline ≤ clock) :
      Finish clock inner flight inner { flight with task := .waited false }
  | sweep {flight : ShutdownFlight} (h : flight.task = .waited false) :
      Finish clock inner flight inner { flight with task := .swept }
  | forceStop {flight : ShutdownFlight} (h : flight.task = .swept) :
      Finish clock inner flight { inner with forceStop := true }
        { flight with task := .fencing false }
  | graceful {flight : ShutdownFlight} (h : flight.task = .waited true) :
      Finish clock inner flight inner { flight with task := .fencing true }
  | fence {flight : ShutdownFlight} {drained : Bool} (h : flight.task = .fencing drained) :
      Finish clock inner flight { inner with accepting := fun _ => false }
        { flight with task := .fenced drained }
  | coordinate {flight : ShutdownFlight} {drained : Bool} (h : flight.task = .fenced drained) :
      Finish clock inner flight { inner with coordinator := inner.coordinator.forceStop }
        { flight with task := .coordinated drained }
  | abortSchedulers {flight : ShutdownFlight} {drained : Bool}
      (h : flight.task = .coordinated drained) :
      Finish clock inner flight
        { inner with registry := { inner.registry with schedulers := fun _ => false } }
        { flight with task := .aborting drained }
  | aborted {flight : ShutdownFlight} {drained : Bool} (h : flight.task = .aborting drained) :
      Finish clock inner flight inner { flight with task := .releasing drained }
  | clearHealth {flight : ShutdownFlight} {drained : Bool} (h : flight.task = .released drained) :
      Finish clock inner flight
        { inner with
          registry := { inner.registry with health := inner.registry.health.clearModels } }
        { flight with task := .unlisted drained }
  | stop {flight : ShutdownFlight} {drained : Bool} (h : flight.task = .unlisted drained) :
      Finish clock inner flight
        { inner with
          registry :=
            { inner.registry with
              health := inner.registry.health.transition .stopped (some .stopped) } }
        { flight with task := .stopped drained }
  | publish {flight : ShutdownFlight} {drained : Bool} (h : flight.task = .stopped drained) :
      Finish clock inner flight inner
        { flight with task := .finished drained, completion := some drained }
  /-- The executor is torn down while the task awaits. -/
  | lost {flight : ShutdownFlight}
      (h : (∃ drained, flight.task = .spawned drained) ∨
        (∃ deadline, flight.task = .parked deadline) ∨ ∃ drained, flight.task = .aborting drained) :
      Finish clock inner flight inner { flight with task := .lost }

/-- The state with another program point of a call. -/
def State.withCall (s : State) (task : Nat) (call : Call) : State :=
  { s with calls := Function.update s.calls task call }

/-- One step of an actor. -/
inductive Step : Actor → State → State → Prop where
  | begin {s : State} {task : Nat} {call : Call} (h : s.calls task = .absent)
      (hcall : Begins call) : Step (.call task) s (s.withCall task call)
  | enter {s : State} {task taken : Nat} {updates : List Update} {next : Call}
      (hfree : s.admin = none) (h : Section s.inner (s.calls task) taken updates next) :
      Step (.call task) s
        { s.withCall task (.holding next) with
          inner := { s.inner with nextKey := s.inner.nextKey + taken }
          admin := some (.call task, updates) }
  | write {s : State} {actor : Actor} {update : Update} {updates : List Update}
      (h : s.admin = some (actor, update :: updates)) :
      Step actor s { s with inner := update.apply s.inner, admin := some (actor, updates) }
  | leave {s : State} {task : Nat} {next : Call} (h : s.admin = some (.call task, []))
      (hcall : s.calls task = .holding next) :
      Step (.call task) s { s.withCall task next with admin := none }
  | move {s : State} {task : Nat} {inner : Inner} {next : Call}
      (h : Move s.inner (s.calls task) inner next) :
      Step (.call task) s { s.withCall task next with inner := inner }
  | finish {s : State} {inner : Inner} {flight flight' : ShutdownFlight}
      (h : s.inner.flight = some flight) (hstep : Finish s.clock s.inner flight inner flight') :
      Step .finisher s { s with inner := { inner with flight := some flight' } }
  | finishEnter {s : State} {flight : ShutdownFlight} {drained : Bool} (hfree : s.admin = none)
      (h : s.inner.flight = some flight) (htask : flight.task = .releasing drained) :
      Step .finisher s
        { s with
          inner := { s.inner with flight := some { flight with task := .clearing drained } }
          admin := some (.finisher, Inner.releaseRegistries) }
  | finishLeave {s : State} {flight : ShutdownFlight} {drained : Bool}
      (h : s.admin = some (.finisher, [])) (hflight : s.inner.flight = some flight)
      (htask : flight.task = .clearing drained) :
      Step .finisher s
        { s with
          inner := { s.inner with flight := some { flight with task := .released drained } }
          admin := none }
  -- `EmbeddingApplication`
  | lockLoaded {s : State} {task : Nat} {origin : Origin} {id : String} {key : ModelKey}
      (h : s.calls task = .load origin id (.recording key)) (hfree : s.loadedLock = none) :
      Step (.call task) s
        { s.withCall task (.load origin id (.recordLocked key)) with loadedLock := some task }
  | recordFenced {s : State} {task : Nat} {origin : Origin} {id : String} {key : ModelKey}
      (h : s.calls task = .load origin id (.recordLocked key)) (hfence : s.shuttingDown = true) :
      Step (.call task) s
        { s.withCall task (.load origin id (.retracting key)) with loadedLock := none }
  | recordOpen {s : State} {task : Nat} {origin : Origin} {id : String} {key : ModelKey}
      (h : s.calls task = .load origin id (.recordLocked key)) (hopen : s.shuttingDown = false) :
      Step (.call task) s (s.withCall task (.load origin id (.recordChecked key)))
  | record {s : State} {task : Nat} {origin : Origin} {id : String} {key : ModelKey}
      (h : s.calls task = .load origin id (.recordChecked key)) :
      Step (.call task) s
        { s.withCall task (.load origin id (.recorded key (.ok ()))) with
          loaded := Function.update s.loaded id true
          loadedLock := none }
  | fenceApplication {s : State} {task : Nat} {deadline : Option Nat}
      (h : s.calls task = .shutdown .application (.called deadline)) :
      Step (.call task) s
        { s.withCall task (.shutdown .application (.joining deadline)) with shuttingDown := true }
  | clearLoaded {s : State} {task : Nat} {result : Bool}
      (h : s.calls task = .shutdown .application (.returned result))
      (hfree : s.loadedLock = none) :
      Step (.call task) s
        { s.withCall task (.shutdown .application (.cleared result)) with
          loaded := fun _ => false }
  -- Unloads and roll-backs of `EmbeddingApplication` remove an id while they hold the lock.
  | unloadRecord {s : State} (id : String) (hfree : s.loadedLock = none) :
      Step .environment s { s with loaded := Function.update s.loaded id false }
  | tick {s : State} (now : Nat) (h : s.clock ≤ now) : Step .environment s { s with clock := now }
  -- Requests and explicit leases count on a slot.
  | lease {s : State} (key : ModelKey) (count : Nat) :
      Step .environment s
        { s with inner := { s.inner with leases := Function.update s.inner.leases key count } }

/-- A step of some actor. -/
def Next (s s' : State) : Prop :=
  ∃ actor, Step actor s s'

end EmbeddingServer.Lifecycle
