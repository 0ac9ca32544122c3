import EmbeddingServer.Lib.Transition
import EmbeddingServer.Runtime.Registry

/-!
# The preload machine

The application under `StartupPolicy::Strict`: any number of `preload`, `load`, `unload`, other
lifecycle calls, `embed` requests and shutdowns run against one application. A task is at one of
its program points, the places where the source awaits or where it reads or writes what is shared;
what the source does under one lock of the runtime, of `loaded` or of `preload_pending` is one
step. The lifecycle lock is held over many steps.

A strict `preload` is a transaction: it gates the models that are not loaded in `preload_pending`,
loads them, and on an error, or when its future is dropped, unloads what it loaded and opens the
gate again (`StrictPreloadTransaction::drop`). An `embed` reads the gate once and enters the
runtime later.

The runtime loads with steps of its own (see `Lifecycle`); to the application a load fails at some
point or publishes a slot. The ghost fields say which preload published a slot, which preloads
have committed, and what was registered when a preload took the lock.
-/

namespace EmbeddingServer.Preload

/-! ## Shared state -/

/-- What the tasks share. -/
structure Shared where
  shuttingDown : Bool
  loaded : String → Bool
  preloadPending : String → Bool
  /-- The holder of the lifecycle lock. -/
  lifecycle : Option Nat
  /-- The runtime refuses new work. -/
  draining : Bool
  models : String → Option ModelKey
  accepting : ModelKey → Bool
  leases : ModelKey → Nat
  nextKey : Nat
  /-- Ghost: the preload that published a slot. -/
  origin : ModelKey → Option Nat
  /-- Ghost: the preloads that have committed. -/
  committed : Nat → Bool
  /-- Ghost: the slots that were registered when a preload took the lock. -/
  entry : Nat → String → Option ModelKey

/-- A new application. -/
def Shared.new : Shared where
  shuttingDown := false
  loaded _ := false
  preloadPending _ := false
  lifecycle := none
  draining := false
  models _ := none
  accepting _ := false
  leases _ := 0
  nextKey := 1
  origin _ := none
  committed _ := false
  entry _ _ := none

namespace Shared

/-- `is_loaded`. -/
def isLoaded (s : Shared) (id : String) : Bool :=
  !s.shuttingDown && !s.preloadPending id && s.loaded id

/-- The publication of a new slot, by a preload or not. -/
def publish (s : Shared) (id : String) (preload : Option Nat) : Shared :=
  { s with
    models := Function.update s.models id (some s.nextKey)
    accepting := Function.update s.accepting s.nextKey true
    origin := Function.update s.origin s.nextKey preload
    nextKey := s.nextKey + 1 }

/-- `ApplicationRuntime::unload`: nothing changes unless the model is registered and has no
leases. -/
def unload (s : Shared) (id : String) : Bool × Shared :=
  if s.draining then (false, s)
  else
    match s.models id with
    | none => (false, s)
    | some key =>
        if s.leases key ≠ 0 then (false, s)
        else
          (true,
            { s with
              models := Function.update s.models id none
              accepting := Function.update s.accepting key false })

/-- `loaded.insert(..)`. -/
def insertLoaded (s : Shared) (id : String) : Shared :=
  { s with loaded := Function.update s.loaded id true }

/-- `loaded.remove(..)` for each of the models. -/
def removeLoaded (s : Shared) (ids : List String) : Shared :=
  { s with loaded := fun id => s.loaded id && !ids.contains id }

/-- `preload_pending.extend(..)`. -/
def gate (s : Shared) (ids : List String) : Shared :=
  { s with preloadPending := fun id => s.preloadPending id || ids.contains id }

/-- `preload_pending.remove(..)` for each of the models. -/
def ungate (s : Shared) (ids : List String) : Shared :=
  { s with preloadPending := fun id => s.preloadPending id && !ids.contains id }

/-- `RuntimeLease::drop`. -/
def release (s : Shared) (key : ModelKey) : Shared :=
  { s with leases := Function.update s.leases key (s.leases key - 1) }

end Shared

/-! ## Tasks -/

/-- Program points of `embed`. -/
inductive EmbedPc where
  | called
  /-- `shutting_down` was false. -/
  | running
  /-- The model was not pending. -/
  | passed
  /-- The slot was found in the registry. -/
  | found (key : ModelKey)
  /-- The slot was accepting. -/
  | accepted (key : ModelKey)
  /-- The lease was taken, on the slot that was registered then. -/
  | leased (key lease : ModelKey)
  /-- Inference has started on the engine of the slot. -/
  | inferring (key lease : ModelKey)
  | finished
  deriving DecidableEq, Repr

/-- Program points of `load_locked`. -/
inductive LoadPc where
  | entered
  /-- `load_onnx`. -/
  | loading
  /-- The slot is published; the set `loaded` is next. -/
  | published
  /-- A shutdown was found: the model is unloaded. -/
  | retracting
  deriving DecidableEq, Repr

/-- How a call ends. -/
inductive Ending where
  | succeeded
  | failed
  | dropped
  deriving DecidableEq, Repr

/-- The locals of a strict `preload`: the transaction, and the models that are left. -/
structure Frame where
  gated : List String
  newlyLoaded : List String
  rest : List String

/-- Program points of a lifecycle call. -/
inductive CallPc where
  | called
  /-- `lifecycle.lock().await`. -/
  | waiting
  | locked
  /-- `load`: inside `load_locked`. -/
  | load (pc : LoadPc)
  /-- `unload`: the runtime has unloaded the model. -/
  | unloaded
  /-- `preload`: the models to be gated are known. -/
  | beginning (gated : List String)
  /-- `preload`: the head of the loop. -/
  | looping (frame : Frame)
  /-- `preload`: inside `load_locked`. -/
  | inside (frame : Frame) (id : String) (pc : LoadPc)
  /-- `preload`: the gate is open and the transaction committed. -/
  | committed (gated : List String)
  /-- `StrictPreloadTransaction::drop`, with the models that are still to be unloaded. -/
  | rolling (frame : Frame) (remaining : List String) (ending : Ending)
  /-- The loaded set is next. -/
  | unrecording (frame : Frame) (ending : Ending)
  /-- The gate is next. -/
  | ungating (gated : List String) (ending : Ending)
  /-- Everything is done but the release of the lifecycle lock. -/
  | leaving (ending : Ending)
  | ended (ending : Ending)

/-- The lifecycle calls. -/
inductive Kind where
  | preload
  | load (id : String)
  | unload (id : String)
  /-- `install` and `delete`, which do not touch the registered models. -/
  | other
  deriving DecidableEq, Repr

/-- Program points of `shutdown_with_timeout`. -/
inductive ShutdownPc where
  | called
  /-- `shutting_down` is set. -/
  | fenced
  /-- The runtime is draining. -/
  | draining
  /-- The slots of the runtime do not accept any more. -/
  | closed
  /-- The runtime has released its registries. -/
  | stopped
  /-- The set `loaded` is cleared. -/
  | cleared
  | finished
  deriving DecidableEq, Repr

/-- A task, at its program point. -/
inductive Task where
  | absent
  | embed (id : String) (pc : EmbedPc)
  | call (kind : Kind) (pc : CallPc)
  | shutdown (pc : ShutdownPc)

/-- The state of the machine. -/
structure State where
  shared : Shared
  tasks : Nat → Task

/-- A new application without tasks. -/
def initial : State where
  shared := .new
  tasks _ := .absent

/-- A step of a task. -/
def State.update (s : State) (task : Nat) (next : Task) (shared : Shared) : State where
  shared := shared
  tasks := Function.update s.tasks task next

@[simp] theorem State.update_self (s : State) (task : Nat) (next : Task) (shared : Shared) :
    (s.update task next shared).tasks task = next :=
  Function.update_self ..

/-- The other tasks stay where they are. -/
theorem State.update_ne (s : State) {task other : Nat} (h : other ≠ task) (next : Task)
    (shared : Shared) : (s.update task next shared).tasks other = s.tasks other :=
  Function.update_of_ne h ..

/-! ## Steps -/

/-- A step of `embed`. -/
inductive EmbedStep (s : Shared) (id : String) : EmbedPc → EmbedPc → Shared → Prop where
  | read (h : s.shuttingDown = false) : EmbedStep s id .called .running s
  | pass (h : s.preloadPending id = false) : EmbedStep s id .running .passed s
  /-- `admit_work`, the checks of the input, and the registry. -/
  | find {key : ModelKey} (hopen : s.draining = false) (h : s.models id = some key) :
      EmbedStep s id .passed (.found key) s
  | accept {key : ModelKey} (h : s.accepting key = true) :
      EmbedStep s id (.found key) (.accepted key) s
  | lease {key lease : ModelKey} (h : s.models id = some lease)
      (haccepting : s.accepting lease = true) : EmbedStep s id (.accepted key) (.leased key lease)
        { s with leases := Function.update s.leases lease (s.leases lease + 1) }
  | infer {key lease : ModelKey} : EmbedStep s id (.leased key lease) (.inferring key lease) s
  | answered {key lease : ModelKey} :
      EmbedStep s id (.inferring key lease) .finished (s.release lease)
  /-- An error, or the future is dropped. -/
  | refused {pc : EmbedPc} (h : ∀ key lease, pc ≠ .leased key lease ∧ pc ≠ .inferring key lease) :
      EmbedStep s id pc .finished s
  | abandoned {key lease : ModelKey} :
      EmbedStep s id (.leased key lease) .finished (s.release lease)

/-- A step inside `load_locked`, for a preload or not: the next program point, or the result. -/
inductive LoadStep (s : Shared) (id : String) (preload : Option Nat) :
    LoadPc → LoadPc ⊕ Bool → Shared → Prop where
  | already (h : s.isLoaded id = true) : LoadStep s id preload .entered (.inr false) s
  | enter (h : s.isLoaded id = false) : LoadStep s id preload .entered (.inl .loading) s
  | failed : LoadStep s id preload .loading (.inr false) s
  | publish (hopen : s.draining = false) (h : s.models id = none) :
      LoadStep s id preload .loading (.inl .published) (s.publish id preload)
  | record (h : s.shuttingDown = false) :
      LoadStep s id preload .published (.inr true) (s.insertLoaded id)
  | fence (h : s.shuttingDown = true) : LoadStep s id preload .published (.inl .retracting) s
  | retract : LoadStep s id preload .retracting (.inr false) (s.unload id).2

/-- A step of a lifecycle call under the lock. -/
inductive CallStep (models : List String) (task : Nat) (s : Shared) :
    Kind → CallPc → CallPc → Shared → Prop where
  | fenced {kind : Kind} (h : s.shuttingDown = true) :
      CallStep models task s kind .locked (.leaving .failed) s
  | other (ending : Ending) : CallStep models task s .other .locked (.leaving ending) s
  -- `load`
  | beginLoad {id : String} (h : s.shuttingDown = false) :
      CallStep models task s (.load id) .locked (.load .entered) s
  | load {id : String} {pc next : LoadPc} {after : Shared}
      (h : LoadStep s id none pc (.inl next) after) :
      CallStep models task s (.load id) (.load pc) (.load next) after
  | loadFailed {id : String} {pc : LoadPc} {after : Shared}
      (h : LoadStep s id none pc (.inr false) after) :
      CallStep models task s (.load id) (.load pc) (.leaving .failed) after
  /-- The reply can still fail. -/
  | loaded {id : String} {pc : LoadPc} {after : Shared}
      (h : LoadStep s id none pc (.inr true) after) (ending : Ending) :
      CallStep models task s (.load id) (.load pc) (.leaving ending) after
  | dropLoad {id : String} :
      CallStep models task s (.load id) (.load .loading) (.leaving .dropped) s
  -- `unload`
  | refused {id : String} (hrunning : s.shuttingDown = false) (h : (s.unload id).1 = false) :
      CallStep models task s (.unload id) .locked (.leaving .failed) s
  | unload {id : String} (hrunning : s.shuttingDown = false) (h : (s.unload id).1 = true) :
      CallStep models task s (.unload id) .locked .unloaded (s.unload id).2
  | unlist {id : String} (ending : Ending) :
      CallStep models task s (.unload id) .unloaded (.leaving ending) (s.removeLoaded [id])
  -- `preload`
  | begin (h : s.shuttingDown = false) :
      CallStep models task s .preload .locked
        (.beginning (models.filter fun id => !s.loaded id)) s
  | gate {gated : List String} :
      CallStep models task s .preload (.beginning gated) (.looping ⟨gated, [], models⟩)
        (s.gate gated)
  /-- The catalog does not have the model. -/
  | unknown {frame : Frame} (h : frame.rest ≠ []) :
      CallStep models task s .preload (.looping frame)
        (.rolling frame frame.newlyLoaded.reverse .failed) s
  | skip {frame : Frame} {id : String} {rest : List String} (h : frame.rest = id :: rest)
      (hloaded : s.isLoaded id = true) :
      CallStep models task s .preload (.looping frame) (.looping { frame with rest := rest }) s
  | enter {frame : Frame} {id : String} {rest : List String} (h : frame.rest = id :: rest)
      (hloaded : s.isLoaded id = false) :
      CallStep models task s .preload (.looping frame)
        (.inside { frame with rest := rest } id .entered) s
  | inside {frame : Frame} {id : String} {pc next : LoadPc} {after : Shared}
      (h : LoadStep s id (some task) pc (.inl next) after) :
      CallStep models task s .preload (.inside frame id pc) (.inside frame id next) after
  | insideLoaded {frame : Frame} {id : String} {pc : LoadPc} {after : Shared}
      (h : LoadStep s id (some task) pc (.inr true) after) :
      CallStep models task s .preload (.inside frame id pc)
        (.looping { frame with newlyLoaded := frame.newlyLoaded ++ [id] }) after
  | insideFailed {frame : Frame} {id : String} {pc : LoadPc} {after : Shared}
      (h : LoadStep s id (some task) pc (.inr false) after) :
      CallStep models task s .preload (.inside frame id pc)
        (.rolling frame frame.newlyLoaded.reverse .failed) after
  /-- The future is dropped while the runtime loads. -/
  | dropInside {frame : Frame} {id : String} :
      CallStep models task s .preload (.inside frame id .loading)
        (.rolling frame frame.newlyLoaded.reverse .dropped) s
  | commit {frame : Frame} (h : frame.rest = []) :
      CallStep models task s .preload (.looping frame) (.committed frame.gated)
        { s.ungate frame.gated with committed := Function.update s.committed task true }
  /-- The drop of the committed transaction. -/
  | dropCommitted {gated : List String} :
      CallStep models task s .preload (.committed gated) (.leaving .succeeded) (s.ungate gated)
  | rollback {frame : Frame} {id : String} {remaining : List String} {ending : Ending} :
      CallStep models task s .preload (.rolling frame (id :: remaining) ending)
        (.rolling frame remaining ending) (s.unload id).2
  | rolledBack {frame : Frame} {ending : Ending} :
      CallStep models task s .preload (.rolling frame [] ending) (.unrecording frame ending) s
  | unrecord {frame : Frame} {ending : Ending} :
      CallStep models task s .preload (.unrecording frame ending) (.ungating frame.gated ending)
        (s.removeLoaded frame.newlyLoaded)
  | ungate {gated : List String} {ending : Ending} :
      CallStep models task s .preload (.ungating gated ending) (.leaving ending) (s.ungate gated)

/-- A step of a shutdown after its first. -/
inductive ShutdownStep (s : Shared) : ShutdownPc → ShutdownPc → Shared → Prop where
  | drain : ShutdownStep s .fenced .draining { s with draining := true }
  | close : ShutdownStep s .draining .closed { s with accepting := fun _ => false }
  | stop : ShutdownStep s .closed .stopped { s with models := fun _ => none }
  | clear : ShutdownStep s .stopped .cleared { s with loaded := fun _ => false }
  | ungate : ShutdownStep s .cleared .finished { s with preloadPending := fun _ => false }

/-- What a step is, to those who watch the gate. -/
inductive Event where
  /-- A strict preload is called. -/
  | preload
  /-- A strict preload ends before it has the lifecycle lock. -/
  | unstarted
  /-- An embedding reads the registry for a model: its slot, or a lease on it. -/
  | registry (id : String)
  /-- A `load` has found a shutdown and unloads its model. -/
  | retract (id : String)
  /-- The runtime begins to drain. -/
  | drain
  | quiet
  deriving DecidableEq, Repr

/-- The event of a step of `embed`. -/
def EmbedPc.event (id : String) : EmbedPc → EmbedPc → Event
  | .passed, .found _ => .registry id
  | .accepted _, .leased _ _ => .registry id
  | _, _ => .quiet

/-- The event of the call of a lifecycle operation. -/
def Kind.event : Kind → Event
  | .preload => .preload
  | _ => .quiet

/-- The event when a call ends that did not have the lock. -/
def Kind.unstarted : Kind → Event
  | .preload => .unstarted
  | _ => .quiet

/-- The event of a step of a call under the lock. -/
def CallPc.event : Kind → CallPc → Event
  | .load id, .load .retracting => .retract id
  | _, _ => .quiet

/-- The event of a step of a shutdown. -/
def ShutdownPc.event : ShutdownPc → Event
  | .fenced => .drain
  | _ => .quiet

/-- One step of a task. -/
inductive Step (models : List String) (task : Nat) (s : State) : Event → State → Prop where
  | embedCalled {id : String} (h : s.tasks task = .absent) :
      Step models task s .quiet (s.update task (.embed id .called) s.shared)
  | embed {id : String} {pc next : EmbedPc} {after : Shared} (h : s.tasks task = .embed id pc)
      (hstep : EmbedStep s.shared id pc next after) :
      Step models task s (EmbedPc.event id pc next) (s.update task (.embed id next) after)
  | called {kind : Kind} (h : s.tasks task = .absent) :
      Step models task s kind.event (s.update task (.call kind .called) s.shared)
  | refused {kind : Kind} (h : s.tasks task = .call kind .called)
      (hdown : s.shared.shuttingDown = true) :
      Step models task s kind.unstarted (s.update task (.call kind (.ended .failed)) s.shared)
  | wait {kind : Kind} (h : s.tasks task = .call kind .called)
      (hrunning : s.shared.shuttingDown = false) :
      Step models task s .quiet (s.update task (.call kind .waiting) s.shared)
  | abandon {kind : Kind} (h : s.tasks task = .call kind .waiting) :
      Step models task s kind.unstarted (s.update task (.call kind (.ended .dropped)) s.shared)
  | lock {kind : Kind} (h : s.tasks task = .call kind .waiting)
      (hfree : s.shared.lifecycle = none) : Step models task s .quiet
        (s.update task (.call kind .locked)
          { s.shared with
            lifecycle := some task
            entry := Function.update s.shared.entry task s.shared.models })
  | call {kind : Kind} {pc next : CallPc} {after : Shared} (h : s.tasks task = .call kind pc)
      (hstep : CallStep models task s.shared kind pc next after) :
      Step models task s (CallPc.event kind pc) (s.update task (.call kind next) after)
  | leave {kind : Kind} {ending : Ending} (h : s.tasks task = .call kind (.leaving ending)) :
      Step models task s .quiet
        (s.update task (.call kind (.ended ending)) { s.shared with lifecycle := none })
  | shutdownCalled (h : s.tasks task = .absent) :
      Step models task s .quiet (s.update task (.shutdown .called) s.shared)
  | shutdownBegins (h : s.tasks task = .shutdown .called) :
      Step models task s .quiet
        (s.update task (.shutdown .fenced) { s.shared with shuttingDown := true })
  | shutdown {pc next : ShutdownPc} {after : Shared} (h : s.tasks task = .shutdown pc)
      (hstep : ShutdownStep s.shared pc next after) :
      Step models task s pc.event (s.update task (.shutdown next) after)

end EmbeddingServer.Preload
