import EmbeddingServer.Core.TokenGraph

/-!
# Waiting for cancellation, step by step

The flag, the waiters and the dependents of a signal are synchronised separately. Here every access
to one of them is a step of its own, and any number of threads take steps in any order: calls of
`cancel` and of `any`, with a stack of what is left to do, and tasks that poll a `cancelled` future
each. Tokens stay held, so a weak reference can always be upgraded.

`is_cancelled` reads one flag after the other. Flags are only set, so the outcome lies between what
an instantaneous look would have said when the reading began and what it would say when it ends;
every outcome in between is possible here.

What a waker does is to have its task polled again. A task is `woken` if that happened since its
last poll began. The fields of a task below `woken` are ghosts.
-/

namespace EmbeddingServer.TokenRace

open TokenGraph

abbrev TaskId := Nat

abbrev ThreadId := Nat

/-- The flags at some moment. -/
abbrev Flags := SignalId → Bool

/-- `is_cancelled`, if it read the flags at one moment. -/
def cancelledAt (flags : Flags) (token : CancellationToken) : Bool :=
  token.isCancelled ⟨0, flags⟩

/-- What a thread has left to do. -/
inductive Work where
  /-- `CancellationSignal::cancel`: the swap is next. -/
  | cancelSignal (signal : SignalId)
  | drainWaiters (signal : SignalId)
  | cloneDependents (signal : SignalId) (waiters : List TaskId)
  | wake (waiters : List TaskId)
  | notify (dependents : List SignalId)
  /-- `source_changed`: the first read of `is_cancelled` is next. -/
  | sourceChanged (dependent : SignalId)
  /-- `source_changed` reads flags since the given moment. -/
  | reading (dependent : SignalId) (begun : Flags)
  /-- `register_dependent`: the push is next. -/
  | pushDependent (dependent signal : SignalId)
  /-- The load after the push. -/
  | checkDependent (dependent signal : SignalId)
  /-- `any` returns. -/
  | publish (token : CancellationToken)

/-- The call that a thread executes. -/
inductive Call where
  | cancel (token : CancellationToken)
  | any (combined : SignalId)

structure Thread where
  call : Call
  work : List Work

/-- Where the poll of a `cancelled` future is. -/
inductive Phase where
  | absent
  /-- Not polled yet. -/
  | fresh
  /-- The first `is_cancelled` reads flags. -/
  | checking (begun : Flags)
  /-- `register_waiter`: the load of the next signal is next. -/
  | registering (rest : List SignalId)
  /-- The flag was not set: the push is next. -/
  | pushing (signal : SignalId) (rest : List SignalId)
  /-- The load after the push. -/
  | pushed (signal : SignalId) (rest : List SignalId)
  /-- The last `is_cancelled` reads flags. -/
  | rechecking (begun : Flags)
  | pending
  | ready

/-- A task that waits for a token: the flags when its last poll began and when it ended, the
signals that the last poll has dealt with, and whether it woke its own task. -/
structure Task where
  token : CancellationToken
  phase : Phase
  woken : Bool
  begun : Flags
  ended : Flags
  registered : List SignalId
  selfWoken : Bool

structure State where
  graph : TokenGraph
  waiters : SignalId → List TaskId
  threads : ThreadId → Thread
  tasks : TaskId → Task

namespace State

/-- Nothing was built yet. -/
def initial : State :=
  { graph := TokenGraph.empty
    waiters := fun _ => []
    threads := fun _ => ⟨.any 0, []⟩
    tasks := fun _ => ⟨.composite [], .absent, false, fun _ => false, fun _ => false, [], false⟩ }

/-- The state with another thread. -/
def withThread (s : State) (thread : ThreadId) (value : Thread) : State :=
  { s with threads := Function.update s.threads thread value }

/-- The state with another task. -/
def withTask (s : State) (task : TaskId) (value : Task) : State :=
  { s with tasks := Function.update s.tasks task value }

/-- The flag of a signal is set. -/
def setFlag (s : State) (signal : SignalId) : State :=
  { s with graph := { s.graph with flags := Function.update s.graph.flags signal true } }

/-- The waiters of a signal. -/
def withWaiters (s : State) (signal : SignalId) (waiters : List TaskId) : State :=
  { s with waiters := Function.update s.waiters signal waiters }

/-- A dependent is added to a signal, unless it is there. -/
def addDependent (s : State) (dependent signal : SignalId) : State :=
  { s with graph := { s.graph with
      dependents := Function.update s.graph.dependents signal
        (if dependent ∈ s.graph.dependents signal then s.graph.dependents signal
          else s.graph.dependents signal ++ [dependent]) } }

/-- A token is held. -/
def hold (s : State) (token : CancellationToken) : State :=
  { s with graph := { s.graph with handles := token :: s.graph.handles } }

/-- A new state without a token that is held. -/
def allocate (s : State) (constituents : Option (List CancellationToken)) : State :=
  { s with graph := { s.graph with
      next := s.graph.next + 1
      heap := Function.update s.graph.heap s.graph.next constituents } }

/-- A waker is called. -/
def wakeTask (s : State) (task : TaskId) : State :=
  s.withTask task { s.tasks task with woken := true }

end State

/-- One step of a thread: what it does to the shared state and what it has to do instead. -/
inductive WorkStep (s : State) : Work → State → List Work → Prop where
  | cancelledBefore {signal : SignalId} (h : s.graph.flags signal = true) :
      WorkStep s (.cancelSignal signal) s []
  | swap {signal : SignalId} (h : s.graph.flags signal = false) :
      WorkStep s (.cancelSignal signal) (s.setFlag signal) [.drainWaiters signal]
  | drain {signal : SignalId} :
      WorkStep s (.drainWaiters signal) (s.withWaiters signal [])
        [.cloneDependents signal (s.waiters signal)]
  | clone {signal : SignalId} {waiters : List TaskId} :
      WorkStep s (.cloneDependents signal waiters) s
        [.wake waiters, .notify (s.graph.dependents signal)]
  | wake {task : TaskId} {rest : List TaskId} :
      WorkStep s (.wake (task :: rest)) (s.wakeTask task) [.wake rest]
  | allWoken : WorkStep s (.wake []) s []
  | notify {dependent : SignalId} {rest : List SignalId} :
      WorkStep s (.notify (dependent :: rest)) s [.sourceChanged dependent, .notify rest]
  | allNotified : WorkStep s (.notify []) s []
  | read {dependent : SignalId} :
      WorkStep s (.sourceChanged dependent) s [.reading dependent s.graph.flags]
  /-- `is_cancelled` of a constituent was true. -/
  | due {dependent : SignalId} {begun : Flags} {constituents : List CancellationToken}
      {token : CancellationToken} (hheap : s.graph.heap dependent = some constituents)
      (htoken : token ∈ constituents) (h : s.graph.isCancelled token = true) :
      WorkStep s (.reading dependent begun) s [.cancelSignal dependent]
  /-- `is_cancelled` of all constituents was false. -/
  | idle {dependent : SignalId} {begun : Flags}
      (h : ∀ constituents, s.graph.heap dependent = some constituents →
        ∀ token ∈ constituents, cancelledAt begun token = false) :
      WorkStep s (.reading dependent begun) s []
  | pushDependent {dependent signal : SignalId} :
      WorkStep s (.pushDependent dependent signal) (s.addDependent dependent signal)
        [.checkDependent dependent signal]
  | dependentDue {dependent signal : SignalId} (h : s.graph.flags signal = true) :
      WorkStep s (.checkDependent dependent signal) s [.sourceChanged dependent]
  | dependentIdle {dependent signal : SignalId} (h : s.graph.flags signal = false) :
      WorkStep s (.checkDependent dependent signal) s []
  | publish {token : CancellationToken} :
      WorkStep s (.publish token) (s.hold token) []

/-- One step of a task. -/
inductive TaskStep (s : State) (task : TaskId) : State → Prop where
  /-- The executor polls the task. -/
  | poll (h : (s.tasks task).phase = .fresh ∨ (s.tasks task).phase = .pending) :
      TaskStep s task (s.withTask task
        { s.tasks task with
          phase := .checking s.graph.flags
          woken := false
          begun := s.graph.flags
          registered := []
          selfWoken := false })
  | cancelled {begun : Flags} (h : (s.tasks task).phase = .checking begun)
      (hcancelled : s.graph.isCancelled (s.tasks task).token = true) :
      TaskStep s task (s.withTask task { s.tasks task with phase := .ready })
  | live {begun : Flags} (h : (s.tasks task).phase = .checking begun)
      (hlive : cancelledAt begun (s.tasks task).token = false) :
      TaskStep s task (s.withTask task
        { s.tasks task with phase := .registering (s.tasks task).token.signals })
  /-- `register_waiter` finds the flag set and wakes. -/
  | wakeBefore {signal : SignalId} {rest : List SignalId}
      (h : (s.tasks task).phase = .registering (signal :: rest))
      (hflag : s.graph.flags signal = true) :
      TaskStep s task (s.withTask task
        { s.tasks task with
          phase := .registering rest
          woken := true
          registered := signal :: (s.tasks task).registered
          selfWoken := true })
  | unset {signal : SignalId} {rest : List SignalId}
      (h : (s.tasks task).phase = .registering (signal :: rest))
      (hflag : s.graph.flags signal = false) :
      TaskStep s task (s.withTask task { s.tasks task with phase := .pushing signal rest })
  | push {signal : SignalId} {rest : List SignalId}
      (h : (s.tasks task).phase = .pushing signal rest) :
      TaskStep s task
        ((s.withWaiters signal
          (if task ∈ s.waiters signal then s.waiters signal
            else s.waiters signal ++ [task])).withTask task
          { s.tasks task with phase := .pushed signal rest })
  /-- The flag was set meanwhile. -/
  | wakeAfter {signal : SignalId} {rest : List SignalId}
      (h : (s.tasks task).phase = .pushed signal rest) (hflag : s.graph.flags signal = true) :
      TaskStep s task (s.withTask task
        { s.tasks task with
          phase := .registering rest
          woken := true
          registered := signal :: (s.tasks task).registered
          selfWoken := true })
  | registered {signal : SignalId} {rest : List SignalId}
      (h : (s.tasks task).phase = .pushed signal rest) (hflag : s.graph.flags signal = false) :
      TaskStep s task (s.withTask task
        { s.tasks task with
          phase := .registering rest
          registered := signal :: (s.tasks task).registered })
  | recheck (h : (s.tasks task).phase = .registering []) :
      TaskStep s task (s.withTask task
        { s.tasks task with phase := .rechecking s.graph.flags })
  | cancelledMeanwhile {begun : Flags} (h : (s.tasks task).phase = .rechecking begun)
      (hcancelled : s.graph.isCancelled (s.tasks task).token = true) :
      TaskStep s task (s.withTask task { s.tasks task with phase := .ready })
  | pending {begun : Flags} (h : (s.tasks task).phase = .rechecking begun)
      (hlive : cancelledAt begun (s.tasks task).token = false) :
      TaskStep s task (s.withTask task
        { s.tasks task with phase := .pending, ended := s.graph.flags })

/-- One step of the program. -/
inductive Step : State → State → Prop where
  | default {s : State} : Step s ((s.allocate none).hold (.single s.graph.next))
  | composite {s : State} {members : List CancellationToken}
      (h : ∀ member ∈ members, member ∈ s.graph.handles) :
      Step s (s.hold (compositeToken members))
  | startCancel {s : State} {thread : ThreadId} {token : CancellationToken}
      (hidle : (s.threads thread).work = []) (h : token ∈ s.graph.handles) :
      Step s (s.withThread thread ⟨.cancel token, token.signals.map Work.cancelSignal⟩)
  | startAny {s : State} {thread : ThreadId} {constituents : List CancellationToken}
      (hidle : (s.threads thread).work = [])
      (h : ∀ token ∈ constituents, token ∈ s.graph.handles) :
      Step s ((s.allocate (some constituents)).withThread thread
        ⟨.any s.graph.next,
          (constituents.flatMap CancellationToken.signals).map (.pushDependent s.graph.next) ++
            [.sourceChanged s.graph.next, .publish (.any s.graph.next constituents)]⟩)
  | work {s s' : State} {thread : ThreadId} {call : Call} {first : Work} {rest next : List Work}
      (hthread : s.threads thread = ⟨call, first :: rest⟩) (h : WorkStep s first s' next) :
      Step s (s'.withThread thread ⟨call, next ++ rest⟩)
  | spawn {s : State} {task : TaskId} {token : CancellationToken}
      (habsent : (s.tasks task).phase = .absent) (h : token ∈ s.graph.handles) :
      Step s (s.withTask task { s.tasks task with token := token, phase := .fresh })
  | task {s s' : State} {task : TaskId} (h : TaskStep s task s') : Step s s'

end EmbeddingServer.TokenRace
