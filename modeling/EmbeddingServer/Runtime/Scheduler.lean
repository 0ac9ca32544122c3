import EmbeddingServer.Lib.Transition
import EmbeddingServer.Runtime.Batch

/-!
# The per-model scheduler

`run_scheduler` collects requests from a model's channel, sorts them by sequence, cuts
batches out of the deque and offers each batch to the blocking pool. The batch formation
is a function (`formBatch`); the task itself is a step relation whose program points are
the awaits and branches of the source.

The environment steps at any time: requests arrive, the stop signal is sent or its
sender dropped, `accepting` is cleared, and pool workers take and run accepted jobs. A
check of a request's control may observe any moment. The ghost fields `arrived` and
`received` record what entered the channel and what the task took off it.
-/

namespace EmbeddingServer

/-- `BatchPolicy`. Durations are numbers of some unit, on which nothing here depends. -/
structure BatchPolicy where
  queueDepth : Nat
  maxItems : Nat
  maxInputBytes : Nat
  maxRequestBytes : Nat
  maxTokens : Nat
  maxBatchItems : Nat
  maxBatchTokens : Nat
  maxBatchWait : Nat
  blockingConcurrency : Nat
  requestTimeout : Nat
  deriving DecidableEq, Repr

/-- `BatchPolicy::default`, with durations in milliseconds. -/
def BatchPolicy.default : BatchPolicy :=
  { queueDepth := 256
    maxItems := 128
    maxInputBytes := 256 * 1024
    maxRequestBytes := 1024 * 1024
    maxTokens := 32768
    maxBatchItems := 128
    maxBatchTokens := 32768
    maxBatchWait := 4
    blockingConcurrency := 4
    requestTimeout := 30000 }

/-- A batch under construction: the members chosen so far with their totals, and the deque. -/
structure BatchBuild where
  requests : List Request
  items : Nat
  maxSequenceLength : Nat
  pending : List Request

/-- The candidate fits the batch: same options, and within the item and padded-token bounds. -/
def compatible (policy : BatchPolicy) (key : EmbedOptions) (candidate : Request)
    (combinedItems combinedSequence : Nat) : Bool :=
  candidate.options = key && combinedItems ≤ policy.maxBatchItems &&
    (Checked.mul wordBits combinedItems combinedSequence).any
      fun work => work ≤ policy.maxBatchTokens

/-- One iteration of the scan: pop the front of the deque, and either add it to the batch or
rotate it to the back. -/
def scanStep (policy : BatchPolicy) (key : EmbedOptions) (build : BatchBuild) : BatchBuild :=
  match build.pending with
  | [] => build
  | candidate :: rest =>
      match Checked.add wordBits build.items candidate.inputs.length with
      | none => { build with pending := rest ++ [candidate] }
      | some combinedItems =>
          let combinedSequence := max build.maxSequenceLength candidate.cost.maxSequenceLength
          if compatible policy key candidate combinedItems combinedSequence then
            { requests := build.requests ++ [candidate]
              items := combinedItems
              maxSequenceLength := combinedSequence
              pending := rest }
          else { build with pending := rest ++ [candidate] }

/-- The scan over the deque; the count is its length when the scan begins. -/
def scan (policy : BatchPolicy) (key : EmbedOptions) : Nat → BatchBuild → BatchBuild
  | 0, build => build
  | count + 1, build => scan policy key count (scanStep policy key build)

/-- Build the batch of an active first request out of the deque. -/
def formBatch (policy : BatchPolicy) (first : Request) (pending : List Request) : BatchBuild :=
  scan policy first.options pending.length
    { requests := [first]
      items := first.inputs.length
      maxSequenceLength := first.cost.maxSequenceLength
      pending := pending }

/-- `pending.make_contiguous().sort_by_key(|request| request.sequence)`, a stable sort. -/
def sortBySequence (pending : List Request) : List Request :=
  pending.mergeSort fun left right => left.sequence ≤ right.sequence

/-- The job closure of a dispatched batch, from the offer to the pool on. -/
inductive JobState where
  /-- `try_execute` has not answered yet. -/
  | offered
  /-- Accepted by the pool and not yet taken by a worker. -/
  | queued
  /-- A worker runs the closure with what it took out of the shared cell. -/
  | running (owned : Option (List Request))
  /-- The worker is done with the closure. -/
  | executed
  /-- The pool was full; the closure was dropped. -/
  | rejected
  /-- The scheduler took the batch back and failed it. -/
  | recovered

/-- The `Arc<Mutex<Option<Vec<Request>>>>` of one `dispatch_batch` call with its job. `batch` is
what the call was given, `answers` what has been sent on its behalf, and the two counters record
how often the batch was executed and how often it was recovered and failed. -/
structure Cell where
  batch : List Request
  contents : Option (List Request)
  job : JobState
  answers : List Answer
  executions : Nat
  recoveries : Nat

/-- Program points of `run_scheduler`. -/
inductive SchedulerPc where
  /-- The head of the outer loop. -/
  | top
  /-- The select over stop and the channel while nothing is pending. -/
  | idle
  /-- The batching window: select over stop, the timer and the channel. -/
  | collect
  /-- After the window, before the sort. -/
  | collected
  /-- The head of the round: `while !pending.is_empty()`. -/
  | round
  /-- Inside `dispatch_batch`, at `try_execute`. -/
  | dispatching
  /-- Inside `dispatch_batch`, after the pool refused the job. -/
  | recovering
  /-- At `yield_now` after a dispatch. -/
  | yielded
  /-- After the round, at the check of `accepting`. -/
  | roundEnd
  /-- After the outer loop, before `receiver.close()`. -/
  | draining
  /-- The `try_recv` loop. -/
  | drainChannel
  | finished
  deriving DecidableEq

/-- The scheduler task with everything it shares. -/
structure SchedulerState where
  pc : SchedulerPc
  channel : List Request
  sendersAlive : Bool
  closed : Bool
  stop : Bool
  stopSenderAlive : Bool
  accepting : Bool
  pending : List Request
  /-- Answers to requests found inactive when a batch was started. -/
  inactive : List Answer
  /-- One cell per `dispatch_batch` call, oldest first. -/
  cells : List Cell
  /-- Answers of the shutdown drain. -/
  drained : List Answer
  arrived : List Request
  received : List Request

/-- The state in which `run_scheduler` is spawned. -/
def SchedulerState.initial : SchedulerState :=
  { pc := .top, channel := [], sendersAlive := true, closed := false, stop := false,
    stopSenderAlive := true, accepting := true, pending := [], inactive := [], cells := [],
    drained := [], arrived := [], received := [] }

/-- The select branch on `stop.changed()` leaves the loop. -/
def SchedulerState.stopped (s : SchedulerState) : Bool :=
  s.stop || !s.stopSenderAlive

/-- Steps of the environment: senders, owners of the stop and accepting flags. -/
inductive EnvStep : SchedulerState → SchedulerState → Prop where
  /-- A request enters the channel. A permit taken before `close` may still deliver after it. -/
  | arrive (s request) :
      EnvStep s { s with
        channel := s.channel ++ [request], arrived := s.arrived ++ [request] }
  | dropSenders (s) : EnvStep s { s with sendersAlive := false }
  | sendStop (s) : EnvStep s { s with stop := true }
  | dropStopSender (s) : EnvStep s { s with stopSenderAlive := false }
  | setAccepting (s value) : EnvStep s { s with accepting := value }

/-- Steps of a pool worker on an accepted job. -/
inductive WorkerStep (modelId : String) : SchedulerState → SchedulerState → Prop where
  /-- The closure takes the batch out of the shared cell. -/
  | take (s earlier cell later) :
      s.cells = earlier ++ cell :: later → cell.job = .queued →
      WorkerStep modelId s { s with
        cells := earlier ++ { cell with contents := none, job := .running cell.contents } :: later }
  /-- The closure runs `execute_batch` on what it took, with any engine and observations. -/
  | run (s earlier cell later owned engine checks) :
      s.cells = earlier ++ cell :: later → cell.job = .running (some owned) →
      WorkerStep modelId s { s with
        cells := earlier ++
          { cell with
            job := .executed
            answers := cell.answers ++ (executeBatch engine modelId owned checks).answers
            executions := cell.executions + 1 } ::
          later }
  /-- The cell was already empty: the closure does nothing. -/
  | skip (s earlier cell later) :
      s.cells = earlier ++ cell :: later → cell.job = .running none →
      WorkerStep modelId s { s with
        cells := earlier ++ { cell with job := .executed } :: later }

/-- Steps of the scheduler task. -/
inductive TaskStep (policy : BatchPolicy) : SchedulerState → SchedulerState → Prop where
  | top_stop (s) : s.pc = .top → s.stop = true → TaskStep policy s { s with pc := .draining }
  | top_idle (s) : s.pc = .top → s.stop = false → s.pending = [] →
      TaskStep policy s { s with pc := .idle }
  | top_collect (s) : s.pc = .top → s.stop = false → s.pending ≠ [] →
      TaskStep policy s { s with pc := .collect }
  | idle_stop (s) : s.pc = .idle → s.stopped = true → TaskStep policy s { s with pc := .draining }
  /-- A change of the stop channel to `false` only leaves the select. -/
  | idle_changed (s) : s.pc = .idle → s.stopped = false →
      TaskStep policy s { s with pc := .collect }
  | idle_recv (s request rest) : s.pc = .idle → s.channel = request :: rest →
      TaskStep policy s { s with
        pc := .collect, channel := rest, pending := s.pending ++ [request],
        received := s.received ++ [request] }
  | idle_closed (s) : s.pc = .idle → s.channel = [] → s.sendersAlive = false →
      TaskStep policy s { s with pc := .draining }
  | collect_stop (s) : s.pc = .collect → s.stopped = true →
      TaskStep policy s { s with pc := .draining }
  /-- A change to `false` re-enters the select unless the deque is full. -/
  | collect_changed (s) : s.pc = .collect → s.stopped = false →
      TaskStep policy s { s with
        pc := if policy.queueDepth ≤ s.pending.length then .collected else .collect }
  | collect_timer (s) : s.pc = .collect → TaskStep policy s { s with pc := .collected }
  | collect_recv (s request rest) : s.pc = .collect → s.channel = request :: rest →
      TaskStep policy s { s with
        pc := if policy.queueDepth ≤ (s.pending ++ [request]).length then .collected
          else .collect
        channel := rest, pending := s.pending ++ [request],
        received := s.received ++ [request] }
  | collect_closed (s) : s.pc = .collect → s.channel = [] → s.sendersAlive = false →
      TaskStep policy s { s with pc := .collected }
  | collected_stop (s) : s.pc = .collected → s.stop = true →
      TaskStep policy s { s with pc := .top }
  | collected_sort (s) : s.pc = .collected → s.stop = false →
      TaskStep policy s { s with pc := .round, pending := sortBySequence s.pending }
  | round_done (s) : s.pc = .round → s.pending = [] → TaskStep policy s { s with pc := .roundEnd }
  /-- The first request is no longer active: answer it and continue the round. -/
  | round_inactive (s first rest moment error) : s.pc = .round → s.pending = first :: rest →
      first.control.ensureActive moment = .error error →
      TaskStep policy s { s with
        pending := rest, inactive := s.inactive ++ [⟨first, .error error⟩] }
  /-- Build the batch of the first request and enter `dispatch_batch`. -/
  | round_dispatch (s first rest moment) : s.pc = .round → s.pending = first :: rest →
      first.control.ensureActive moment = .ok () →
      TaskStep policy s { s with
        pc := .dispatching, pending := (formBatch policy first rest).pending,
        cells := s.cells ++
          [{ batch := (formBatch policy first rest).requests
             contents := some (formBatch policy first rest).requests
             job := .offered
             answers := []
             executions := 0
             recoveries := 0 }] }
  | pool_accept (s earlier cell) : s.pc = .dispatching → s.cells = earlier ++ [cell] →
      TaskStep policy s { s with
        pc := .yielded, cells := earlier ++ [{ cell with job := .queued }] }
  | pool_full (s earlier cell) : s.pc = .dispatching → s.cells = earlier ++ [cell] →
      TaskStep policy s { s with
        pc := .recovering, cells := earlier ++ [{ cell with job := .rejected }] }
  /-- Recover ownership and fail every request with `QueueFull`. -/
  | recover (s earlier cell requests checks) : s.pc = .recovering →
      s.cells = earlier ++ [cell] → cell.contents = some requests →
      TaskStep policy s { s with
        pc := .yielded,
        cells := earlier ++
          [{ cell with
             contents := none
             job := .recovered
             answers := cell.answers ++ failRequests checks .queue_full 0 requests
             recoveries := cell.recoveries + 1 }] }
  | recover_none (s earlier cell) : s.pc = .recovering → s.cells = earlier ++ [cell] →
      cell.contents = none →
      TaskStep policy s { s with
        pc := .yielded, cells := earlier ++ [{ cell with job := .recovered }] }
  | yielded (s) : s.pc = .yielded → TaskStep policy s { s with pc := .round }
  | round_end_break (s) : s.pc = .roundEnd → s.accepting = false → s.channel = [] →
      TaskStep policy s { s with pc := .draining }
  | round_end_loop (s) : s.pc = .roundEnd → (s.accepting = true ∨ s.channel ≠ []) →
      TaskStep policy s { s with pc := .top }
  /-- `receiver.close()` and the failure of everything pending. -/
  | drain_pending (s checks) : s.pc = .draining →
      TaskStep policy s { s with
        pc := .drainChannel, closed := true, pending := [],
        drained := s.drained ++ failRequests checks .modelUnavailable 0 s.pending }
  | drain_recv (s request rest checks) : s.pc = .drainChannel → s.channel = request :: rest →
      TaskStep policy s { s with
        channel := rest, received := s.received ++ [request],
        drained := s.drained ++ failRequests checks .modelUnavailable 0 [request] }
  | drain_empty (s) : s.pc = .drainChannel → s.channel = [] →
      TaskStep policy s { s with pc := .finished }

/-- One step of the scheduler or of anything it runs beside. -/
inductive SchedulerStep (policy : BatchPolicy) (modelId : String) :
    SchedulerState → SchedulerState → Prop where
  | env {s s'} : EnvStep s s' → SchedulerStep policy modelId s s'
  | worker {s s'} : WorkerStep modelId s s' → SchedulerStep policy modelId s s'
  | task {s s'} : TaskStep policy s s' → SchedulerStep policy modelId s s'

/-- The states a scheduler can reach from its start. -/
def SchedulerReachable (policy : BatchPolicy) (modelId : String) : SchedulerState → Prop :=
  Transition.Run (SchedulerStep policy modelId) .initial

end EmbeddingServer
