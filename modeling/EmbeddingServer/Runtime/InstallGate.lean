import EmbeddingServer.Lib.Transition
import EmbeddingServer.Models.Withholding
import EmbeddingServer.Runtime.Preflight

/-!
# The commit gate of an installation

`run_install_transaction` with everybody who takes part: the task that runs
`install_transaction`, its caller, who waits in the biased `select!` and may be dropped at any
await, and a shutdown that stops waiting for the work in flight. They share the commit gate, the
cancellation token, the `force_stop` watch, the registration and the channel of the result.

A cancellation is three separate actions, `request_cancel`, the store to the token and, for the
caller's guard, the abort of the task; anything may happen between them. The invariant is `Sound`:
the gate remembers which of the two sides won, and whatever a cancellation leaves behind, a token
or an abort, is only there if it won.
-/

namespace EmbeddingServer.InstallGate

open Transition

/-! ## The gate -/

/-- The values of `InstallCommitGate`: `COMMIT_OPEN`, `COMMIT_CANCELLED` and `COMMIT_CROSSED`. -/
inductive Gate where
  | opened
  | cancelled
  | crossed
  deriving DecidableEq, Repr

/-- `CommitDecision`. -/
inductive CommitDecision where
  | cancelledBeforeCommit
  | alreadyCommitted
  deriving DecidableEq, Repr

/-- `InstallCommitGate::request_cancel`, the decision and the gate afterwards. -/
def Gate.requestCancel : Gate → CommitDecision × Gate
  | .opened => (.cancelledBeforeCommit, .cancelled)
  | .cancelled => (.cancelledBeforeCommit, .cancelled)
  | .crossed => (.alreadyCommitted, .crossed)

/-- `InstallCommitGate::begin_commit`, its result and the gate afterwards. -/
def Gate.beginCommit : Gate → Bool × Gate
  | .opened => (true, .crossed)
  | .cancelled => (false, .cancelled)
  | .crossed => (false, .crossed)

/-! ## The parties -/

/-- What `install_model` returns. -/
abbrev Outcome := Except LifecycleError ModelStatus

/-- The operation of `install_model`. -/
def operation (installer : Installer) (manifest : Manifest) :
    Program FsOp FsOp.Reply Outcome :=
  (installTransaction installer manifest).run >>= fun result =>
    pure (result.mapError fun _ => .installFailed)

/-- The `oneshot` channel of the result. -/
inductive Channel where
  | empty
  | sent (outcome : Outcome)
  /-- The sender was dropped. -/
  | closed

/-- The spawned task. -/
inductive Task where
  | unspawned
  /-- `operation(…).await`, with the rest of the operation. -/
  | running (rest : Program FsOp FsOp.Reply Outcome)
  /-- The result is sent; `drop(active)` is next. -/
  | sent (outcome : Outcome)
  | ended (outcome : Outcome)
  /-- The future was dropped by an abort. -/
  | aborted

/-- Why the caller's side cancels. -/
inductive Reason where
  /-- `force_stop` was set before the task was spawned. -/
  | refuse
  /-- The `force_stop` branch of `receive_install_result`. -/
  | stop
  /-- `InstallCallerGuard::drop`. -/
  | drop
  deriving DecidableEq, Repr

/-- Program points of the caller. -/
inductive Caller where
  /-- `force_stop.subscribe()` is next. -/
  | begun
  /-- `*force_stop.borrow()` is next. -/
  | subscribed
  /-- The `select!` polls the channel next. -/
  | waiting
  /-- The channel was empty; `force_stop.changed()` is polled next. -/
  | polled
  /-- `request_cancel` is next. -/
  | cancelling (reason : Reason)
  /-- The request has won; `cancellation.cancel()` is next. -/
  | signalling (reason : Reason)
  /-- `task.abort()` is next. -/
  | aborting (reason : Reason)
  /-- The channel alone is awaited. -/
  | awaiting
  | returned (outcome : Outcome)
  | gone

/-- After `request_cancel`. -/
def Reason.decided : Reason → CommitDecision → Caller
  | reason, .cancelledBeforeCommit => .signalling reason
  | .refuse, .alreadyCommitted => .returned (.error .shuttingDown)
  | .stop, .alreadyCommitted => .awaiting
  | .drop, .alreadyCommitted => .gone

/-- The end of a cancellation that has won. -/
def Reason.cancelled : Reason → Caller
  | .refuse => .returned (.error .shuttingDown)
  | .stop => .returned (.error .shuttingDown)
  | .drop => .gone

/-- After the store to the token. Only the guard of a spawned task has something to abort. -/
def Reason.signalled : Reason → Caller
  | .refuse => Reason.refuse.cancelled
  | reason => .aborting reason

/-- What a shutdown still does to the installation. -/
inductive ShutdownAct where
  /-- Lock the registered installations. -/
  | sweep
  /-- `request_cancel`. -/
  | request
  /-- `cancellation.cancel()`. -/
  | signal
  /-- `force_stop.send(true)`. -/
  | publish
  deriving DecidableEq, Repr

/-- After `request_cancel`. -/
def ShutdownAct.decided (rest : List ShutdownAct) : CommitDecision → List ShutdownAct
  | .cancelledBeforeCommit => .signal :: rest
  | .alreadyCommitted => rest

/-- One installation and its surroundings. -/
structure State where
  cache : Cache
  gate : Gate
  /-- The cancellation token. -/
  cancelled : Bool
  /-- The value of `force_stop`. -/
  forced : Bool
  /-- The installation is in `installs`. -/
  registered : Bool
  task : Task
  /-- `task.abort()` was called. -/
  abortRequested : Bool
  channel : Channel
  caller : Caller
  shutdown : List ShutdownAct
  /-- Ghost: what the calls of `request_cancel` returned, newest first. -/
  decisions : List CommitDecision
  /-- Ghost: what the calls of `begin_commit` returned, newest first. -/
  commits : List Bool

/-- Nobody holds the lock of `installs`. -/
def State.unswept (s : State) : Prop :=
  ∀ rest, s.shutdown ≠ .request :: rest ∧ s.shutdown ≠ .signal :: rest

/-- The caller has a receiver of `force_stop`. -/
def Caller.subscriber : Caller → Bool
  | .begun => false
  | .returned _ => false
  | .gone => false
  | _ => true

/-- `begin_install` has returned. The draining flag was not set under the admin lock, so no shutdown
has come as far as to stop installations. -/
def initial (start : Cache) : State where
  cache := start
  gate := .opened
  cancelled := false
  forced := false
  registered := true
  task := .unspawned
  abortRequested := false
  channel := .empty
  caller := .begun
  shutdown := []
  decisions := []
  commits := []

/-- What the task has sent. -/
def State.produced (s : State) : Option Outcome :=
  match s.task with
  | .sent outcome => some outcome
  | .ended outcome => some outcome
  | _ => none

/-! ## Steps -/

section Steps

variable (installer : Installer) (manifest : Manifest)

/-- A step of the task. An abort drops its future at an await, and with it the lock and the
registration; a verification that the blocking pool still runs for it is an operation of its
own. -/
inductive TaskStep : State → State → Prop where
  | perform {s : State} {op : FsOp} {next : op.Reply → Program FsOp FsOp.Reply Outcome}
      (htask : s.task = .running (.perform op next)) (hpoll : op ≠ .poll)
      (hcommit : op ≠ .beginCommit) (choice : Choice) :
      TaskStep s
        { s with
          cache := (respond choice s.cache op).2
          task := .running (next (respond choice s.cache op).1) }
  /-- `cancel.is_cancelled()`. -/
  | poll {s : State} {next : FsOp.poll.Reply → Program FsOp FsOp.Reply Outcome}
      (htask : s.task = .running (.perform .poll next)) :
      TaskStep s { s with task := .running (next (.ok s.cancelled)) }
  | beginCommit {s : State} {next : FsOp.beginCommit.Reply → Program FsOp FsOp.Reply Outcome}
      (htask : s.task = .running (.perform .beginCommit next)) :
      TaskStep s
        { s with
          gate := s.gate.beginCommit.2
          task := .running (next (.ok s.gate.beginCommit.1))
          commits := s.gate.beginCommit.1 :: s.commits }
  | send {s : State} {outcome : Outcome} (htask : s.task = .running (.done outcome)) :
      TaskStep s { s with channel := .sent outcome, task := .sent outcome }
  | finish {s : State} {outcome : Outcome} (htask : s.task = .sent outcome) (hlock : s.unswept) :
      TaskStep s { s with registered := false, task := .ended outcome }
  | abort {s : State} {op : FsOp} {next : op.Reply → Program FsOp FsOp.Reply Outcome}
      (htask : s.task = .running (.perform op next)) (habort : s.abortRequested = true)
      (hlock : s.unswept) :
      TaskStep s
        { s with
          cache := { s.cache with
            locks := s.cache.locks.filter fun lock => lock.owner ≠ installer.store.task }
          task := .aborted
          channel := .closed
          registered := false }

/-- A step of the caller other than being dropped. -/
inductive CallerStep : State → State → Prop where
  | subscribe {s : State} (hcaller : s.caller = .begun) :
      CallerStep s { s with caller := .subscribed }
  | refuse {s : State} (hcaller : s.caller = .subscribed) (hforced : s.forced = true) :
      CallerStep s { s with caller := .cancelling .refuse }
  | spawn {s : State} (hcaller : s.caller = .subscribed) (hforced : s.forced = false) :
      CallerStep s { s with caller := .waiting, task := .running (operation installer manifest) }
  | receive {s : State} {outcome : Outcome} (hcaller : s.caller = .waiting ∨ s.caller = .awaiting)
      (hchannel : s.channel = .sent outcome) :
      CallerStep s { s with caller := .returned outcome }
  | lost {s : State} (hcaller : s.caller = .waiting ∨ s.caller = .awaiting)
      (hchannel : s.channel = .closed) :
      CallerStep s { s with caller := .returned (.error .installFailed) }
  | pending {s : State} (hcaller : s.caller = .waiting) (hchannel : s.channel = .empty) :
      CallerStep s { s with caller := .polled }
  | unforced {s : State} (hcaller : s.caller = .polled) (hforced : s.forced = false) :
      CallerStep s { s with caller := .waiting }
  | stop {s : State} (hcaller : s.caller = .polled) (hforced : s.forced = true) :
      CallerStep s { s with caller := .cancelling .stop }
  | request {s : State} {reason : Reason} (hcaller : s.caller = .cancelling reason) :
      CallerStep s
        { s with
          gate := s.gate.requestCancel.2
          caller := reason.decided s.gate.requestCancel.1
          decisions := s.gate.requestCancel.1 :: s.decisions }
  | signal {s : State} {reason : Reason} (hcaller : s.caller = .signalling reason) :
      CallerStep s { s with cancelled := true, caller := reason.signalled }
  | abort {s : State} {reason : Reason} (hcaller : s.caller = .aborting reason) :
      CallerStep s { s with abortRequested := true, caller := reason.cancelled }
  /-- A refused installation drops its registration. -/
  | unregister {s : State} {outcome : Outcome} (hcaller : s.caller = .returned outcome)
      (htask : s.task = .unspawned) (hlock : s.unswept) :
      CallerStep s { s with registered := false }

/-- A step of a shutdown: `finish_shutdown` after its deadline, or `Inner::drop`. -/
inductive ShutdownStep : State → State → Prop where
  | force {s : State} (hidle : s.shutdown = []) :
      ShutdownStep s { s with shutdown := [.sweep, .publish] }
  /-- The caller borrows the runtime, so the last owner goes after it. -/
  | dropInner {s : State} (hidle : s.shutdown = []) (hcaller : s.caller.subscriber = false)
      (hbegun : s.caller ≠ .begun) :
      ShutdownStep s { s with shutdown := [.publish, .sweep] }
  | sweep {s : State} {rest : List ShutdownAct} (hact : s.shutdown = .sweep :: rest) :
      ShutdownStep s { s with shutdown := if s.registered then .request :: rest else rest }
  | request {s : State} {rest : List ShutdownAct} (hact : s.shutdown = .request :: rest) :
      ShutdownStep s
        { s with
          gate := s.gate.requestCancel.2
          shutdown := ShutdownAct.decided rest s.gate.requestCancel.1
          decisions := s.gate.requestCancel.1 :: s.decisions }
  | signal {s : State} {rest : List ShutdownAct} (hact : s.shutdown = .signal :: rest) :
      ShutdownStep s { s with cancelled := true, shutdown := rest }
  | publish {s : State} {rest : List ShutdownAct} (hact : s.shutdown = .publish :: rest) :
      ShutdownStep s { s with forced := true, shutdown := rest }
  /-- `send` stores nothing while there is no receiver. -/
  | unheard {s : State} {rest : List ShutdownAct} (hact : s.shutdown = .publish :: rest)
      (hcaller : s.caller.subscriber = false) :
      ShutdownStep s { s with shutdown := rest }

/-- A step of anybody. -/
inductive Step : State → State → Prop where
  | task {s s' : State} (h : TaskStep installer s s') : Step s s'
  | caller {s s' : State} (h : CallerStep installer manifest s s') : Step s s'
  /-- The caller's future is dropped at an await. -/
  | drop {s : State} (hcaller : s.caller = .waiting ∨ s.caller = .awaiting) :
      Step s { s with caller := .cancelling .drop }
  | shutdown {s s' : State} (h : ShutdownStep s s') : Step s s'

end Steps

/-! ## The gate decides once -/

/-- The caller's request has won. -/
def Caller.hasWon : Caller → Bool
  | .signalling _ => true
  | .aborting _ => true
  | _ => false

/-- What only a cancellation that has won leaves behind. -/
def State.CancelTrace (s : State) : Prop :=
  .cancelledBeforeCommit ∈ s.decisions ∨ s.cancelled = true ∨ s.abortRequested = true ∨
    .signal ∈ s.shutdown ∨ s.caller.hasWon = true ∨ s.task = .aborted

/-- The gate remembers its winner. -/
structure Gated (s : State) : Prop where
  crossed : true ∈ s.commits ↔ s.gate = .crossed
  cancelled : s.gate = .cancelled → .cancelledBeforeCommit ∈ s.decisions
  already : .alreadyCommitted ∈ s.decisions → s.gate = .crossed
  trace : s.CancelTrace → s.gate = .cancelled
  reached : s.commits ≠ [] → s.gate ≠ .opened

section Gate

variable {installer : Installer} {manifest : Manifest} {s s' : State}

/-- Steps that leave the gate alone. -/
theorem Gated.congr (h : Gated s) (hgate : s'.gate = s.gate) (hcommits : s'.commits = s.commits)
    (hdecisions : s'.decisions = s.decisions) (htrace : s'.CancelTrace → s.CancelTrace) :
    Gated s' where
  crossed := by rw [hcommits, hgate]; exact h.crossed
  cancelled := by rw [hgate, hdecisions]; exact h.cancelled
  already := by rw [hgate, hdecisions]; exact h.already
  trace htrace' := by rw [hgate]; exact h.trace (htrace htrace')
  reached := by rw [hcommits, hgate]; exact h.reached

/-- `request_cancel` in a state whose other fields show no more than a cancellation that wins. -/
theorem Gated.request (h : Gated s) (hgate : s'.gate = s.gate.requestCancel.2)
    (hcommits : s'.commits = s.commits)
    (hdecisions : s'.decisions = s.gate.requestCancel.1 :: s.decisions)
    (htrace : s'.CancelTrace → s.CancelTrace ∨ s.gate.requestCancel.1 = .cancelledBeforeCommit) :
    Gated s' := by
  cases hold : s.gate with
  | crossed =>
      have hdecision : s'.decisions = .alreadyCommitted :: s.decisions := by
        rw [hdecisions, hold]
        rfl
      have hsame : s'.gate = .crossed := by
        rw [hgate, hold]
        rfl
      refine ⟨?_, ?_, fun _ => hsame, fun htrace' => ?_, fun _ => by simp [hsame]⟩
      · rw [hcommits, hsame, h.crossed, hold]
      · simp [hsame]
      · rcases htrace htrace' with hbefore | hwon
        · have hcancelled := h.trace hbefore
          rw [hold] at hcancelled
          cases hcancelled
        · rw [hold] at hwon
          cases hwon
  | opened | cancelled =>
      have hdecision : s'.decisions = .cancelledBeforeCommit :: s.decisions := by
        rw [hdecisions, hold]
        rfl
      have hnow : s'.gate = .cancelled := by
        rw [hgate, hold]
        rfl
      refine ⟨?_, fun _ => by simp [hdecision], fun hmem => ?_, fun _ => hnow,
        fun _ => by simp [hnow]⟩
      · rw [hcommits, h.crossed, hnow]
        simp [hold]
      · have hbefore : .alreadyCommitted ∈ s.decisions := by simpa [hdecision] using hmem
        have hcrossed := h.already hbefore
        rw [hold] at hcrossed
        cases hcrossed

/-- `begin_commit`. -/
theorem Gated.begin_commit (h : Gated s) (hgate : s'.gate = s.gate.beginCommit.2)
    (hcommits : s'.commits = s.gate.beginCommit.1 :: s.commits)
    (hdecisions : s'.decisions = s.decisions) (htrace : s'.CancelTrace → s.CancelTrace) :
    Gated s' := by
  cases hold : s.gate with
  | opened =>
      have hnow : s'.gate = .crossed := by
        rw [hgate, hold]
        rfl
      have htrue : s'.commits = true :: s.commits := by
        rw [hcommits, hold]
        rfl
      refine ⟨by simp [htrue, hnow], by simp [hnow], fun _ => hnow, fun htrace' => ?_,
        fun _ => by simp [hnow]⟩
      have hcancelled := h.trace (htrace htrace')
      rw [hold] at hcancelled
      cases hcancelled
  | cancelled | crossed =>
      have hsame : s'.gate = s.gate := by
        rw [hgate, hold]
        rfl
      have hfalse : s'.commits = false :: s.commits := by
        rw [hcommits, hold]
        rfl
      refine ⟨?_, ?_, ?_, ?_, fun _ => by simp [hsame, hold]⟩
      · simpa [hfalse, hsame] using h.crossed
      · rw [hsame, hdecisions]
        exact h.cancelled
      · rw [hsame, hdecisions]
        exact h.already
      · rw [hsame]
        exact fun htrace' => h.trace (htrace htrace')

theorem Gated.task (h : Gated s) (hstep : TaskStep installer s s') : Gated s' := by
  cases hstep with
  | beginCommit htask => exact h.begin_commit rfl rfl rfl (by simp [State.CancelTrace, htask])
  | abort htask habort hlock =>
      exact h.congr rfl rfl rfl fun _ => Or.inr (Or.inr (Or.inl habort))
  | perform htask | poll htask | send htask | finish htask =>
      exact h.congr rfl rfl rfl (by simp [State.CancelTrace, htask])

theorem Gated.caller (h : Gated s) (hstep : CallerStep installer manifest s s') : Gated s' := by
  cases hstep with
  | @request reason hcaller =>
      refine h.request rfl rfl rfl ?_
      cases hdecision : s.gate.requestCancel.1 with
      | cancelledBeforeCommit => exact fun _ => Or.inr rfl
      | alreadyCommitted =>
          cases reason <;>
            simp [State.CancelTrace, hcaller, Reason.decided, Caller.hasWon]
  | @signal reason hcaller =>
      exact h.congr rfl rfl rfl fun _ => by simp [State.CancelTrace, hcaller, Caller.hasWon]
  | @abort reason hcaller =>
      exact h.congr rfl rfl rfl fun _ => by simp [State.CancelTrace, hcaller, Caller.hasWon]
  | receive hcaller | lost hcaller =>
      rcases hcaller with hcaller | hcaller <;>
        exact h.congr rfl rfl rfl (by simp [State.CancelTrace, hcaller, Caller.hasWon])
  | spawn hcaller =>
      refine h.congr rfl rfl rfl ?_
      simp only [State.CancelTrace, hcaller, Caller.hasWon]
      tauto
  | subscribe hcaller | refuse hcaller | pending hcaller | unforced hcaller | stop hcaller
  | unregister hcaller =>
      exact h.congr rfl rfl rfl (by simp [State.CancelTrace, hcaller, Caller.hasWon])

theorem Gated.shutdown (h : Gated s) (hstep : ShutdownStep s s') : Gated s' := by
  cases hstep with
  | force hidle => exact h.congr rfl rfl rfl (by simp [State.CancelTrace, hidle])
  | dropInner hidle => exact h.congr rfl rfl rfl (by simp [State.CancelTrace, hidle])
  | sweep hact =>
      refine h.congr rfl rfl rfl ?_
      cases hregistered : s.registered <;> simp [State.CancelTrace, hact]
  | @request rest hact =>
      refine h.request rfl rfl rfl ?_
      cases hdecision : s.gate.requestCancel.1 with
      | cancelledBeforeCommit => exact fun _ => Or.inr rfl
      | alreadyCommitted =>
          simp [State.CancelTrace, hact, ShutdownAct.decided]
  | signal hact =>
      exact h.congr rfl rfl rfl fun _ => by simp [State.CancelTrace, hact]
  | publish hact => exact h.congr rfl rfl rfl (by simp [State.CancelTrace, hact])
  | unheard hact => exact h.congr rfl rfl rfl (by simp [State.CancelTrace, hact])

theorem Gated.step (h : Gated s) (hstep : Step installer manifest s s') : Gated s' := by
  cases hstep with
  | task htask => exact h.task htask
  | caller hcaller => exact h.caller hcaller
  | drop hcaller =>
      rcases hcaller with hcaller | hcaller <;>
        exact h.congr rfl rfl rfl (by simp [State.CancelTrace, hcaller, Caller.hasWon])
  | shutdown hshutdown => exact h.shutdown hshutdown

/-- A crossed gate stays crossed. -/
theorem Step.crossed (hstep : Step installer manifest s s') (h : s.gate = .crossed) :
    s'.gate = .crossed := by
  have hrequest : s.gate.requestCancel.2 = .crossed := by
    rw [h]
    rfl
  have hcommit : s.gate.beginCommit.2 = .crossed := by
    rw [h]
    rfl
  rcases hstep with htask | hcaller | _ | hshutdown
  · cases htask <;> first | exact h | exact hcommit
  · cases hcaller <;> first | exact h | exact hrequest
  · exact h
  · cases hshutdown <;> first | exact h | exact hrequest

end Gate

/-! ## The result reaches the caller -/

/-- The task is not spawned yet. -/
def Caller.unstarted : Caller → Bool
  | .begun => true
  | .subscribed => true
  | .cancelling .refuse => true
  | .signalling .refuse => true
  | _ => false

/-- The caller is done with the installation. -/
def Caller.finished : Caller → Bool
  | .returned _ => true
  | .gone => true
  | _ => false

/-- The caller still waits for the result. -/
def Caller.waits : Caller → Bool
  | .waiting => true
  | .polled => true
  | .cancelling .stop => true
  | .awaiting => true
  | _ => false

/-- What the caller returns is what the task has sent, unless a cancellation has won. -/
structure Delivering (s : State) : Prop where
  channel : ∀ outcome, s.channel = .sent outcome ↔ s.produced = some outcome
  closed : s.channel = .closed → s.task = .aborted
  aborted : s.task = .aborted → s.abortRequested = true
  aborts : s.abortRequested = true → s.caller.finished = true
  unstarted : s.caller.unstarted = true → s.task = .unspawned
  unspawned : s.task = .unspawned → s.commits = []
  returned : ∀ outcome, s.caller = .returned outcome →
    (outcome = .error .shuttingDown ∧ s.gate = .cancelled) ∨ s.produced = some outcome

section Delivery

variable {installer : Installer} {manifest : Manifest} {s s' : State}

/-- Steps of a task that goes on running. -/
theorem Delivering.running (h : Delivering s) {rest rest' : Program FsOp FsOp.Reply Outcome}
    (htask : s.task = .running rest) (htask' : s'.task = .running rest')
    (hchannel : s'.channel = s.channel) (habort : s'.abortRequested = s.abortRequested)
    (hcaller : s'.caller = s.caller) (hgate : s.gate = .cancelled → s'.gate = .cancelled) :
    Delivering s' where
  channel outcome := by
    have hsent := h.channel outcome
    rw [hchannel, hsent]
    simp [State.produced, htask, htask']
  closed hclosed := by
    have haborted := h.closed (hchannel ▸ hclosed)
    rw [htask] at haborted
    cases haborted
  aborted haborted := by
    rw [htask'] at haborted
    cases haborted
  aborts hrequested := by
    rw [hcaller]
    exact h.aborts (habort ▸ hrequested)
  unstarted hcaller' := by
    have hunspawned := h.unstarted (hcaller ▸ hcaller')
    rw [htask] at hunspawned
    cases hunspawned
  unspawned hunspawned := by
    rw [htask'] at hunspawned
    cases hunspawned
  returned outcome hreturned := by
    refine Or.inl ?_
    rcases h.returned outcome (hcaller ▸ hreturned) with ⟨heq, hcancelled⟩ | hproduced
    · exact ⟨heq, hgate hcancelled⟩
    · simp [State.produced, htask] at hproduced

/-- Steps that leave the task and the channel alone. -/
theorem Delivering.congr (h : Delivering s) (htask : s'.task = s.task)
    (hchannel : s'.channel = s.channel) (hcommits : s'.commits = s.commits)
    (habort : s.abortRequested = true → s'.abortRequested = true)
    (haborts : s'.abortRequested = true → s'.caller.finished = true)
    (hunstarted : s'.caller.unstarted = true → s.caller.unstarted = true)
    (hreturned : ∀ outcome, s'.caller = .returned outcome →
      (outcome = .error .shuttingDown ∧ s'.gate = .cancelled) ∨ s.produced = some outcome) :
    Delivering s' where
  channel outcome := by
    have hproduced : s'.produced = s.produced := by simp only [State.produced, htask]
    rw [hchannel, hproduced]
    exact h.channel outcome
  closed hclosed := htask ▸ h.closed (hchannel ▸ hclosed)
  aborted haborted := habort (h.aborted (htask ▸ haborted))
  aborts := haborts
  unstarted hcaller := htask ▸ h.unstarted (hunstarted hcaller)
  unspawned hunspawned := hcommits ▸ h.unspawned (htask ▸ hunspawned)
  returned outcome hcaller := by
    have hproduced : s'.produced = s.produced := by simp only [State.produced, htask]
    rw [hproduced]
    exact hreturned outcome hcaller

theorem begin_commit_cancelled {gate : Gate} (h : gate = .cancelled) :
    gate.beginCommit.2 = .cancelled := by
  rw [h]
  rfl

theorem request_cancel_cancelled {gate : Gate} (h : gate = .cancelled) :
    gate.requestCancel.2 = .cancelled := by
  rw [h]
  rfl

theorem already_committed_crossed {gate : Gate} (h : gate.requestCancel.1 = .alreadyCommitted) :
    gate = .crossed := by
  cases gate <;> first | rfl | cases h

theorem Delivering.task (h : Delivering s) (hstep : TaskStep installer s s') :
    Delivering s' := by
  cases hstep with
  | perform htask => exact h.running htask rfl rfl rfl rfl id
  | poll htask => exact h.running htask rfl rfl rfl rfl id
  | beginCommit htask => exact h.running htask rfl rfl rfl rfl begin_commit_cancelled
  | @send outcome htask =>
      refine ⟨fun other => by simp [State.produced], by simp, by simp, h.aborts, fun hcaller => ?_,
        by simp, fun other hreturned => ?_⟩
      · have hunspawned := h.unstarted hcaller
        rw [htask] at hunspawned
        cases hunspawned
      · rcases h.returned other hreturned with hwon | hproduced
        · exact Or.inl hwon
        · simp [State.produced, htask] at hproduced
  | @finish outcome htask =>
      have hsent : s.channel = .sent outcome :=
        (h.channel outcome).mpr (by simp [State.produced, htask])
      refine ⟨fun other => by simp [State.produced, hsent], by simp [hsent], by simp, h.aborts,
        fun hcaller => ?_, by simp, fun other hreturned => ?_⟩
      · have hunspawned := h.unstarted hcaller
        rw [htask] at hunspawned
        cases hunspawned
      · simpa [State.produced, htask] using h.returned other hreturned
  | abort htask habort =>
      refine ⟨by simp [State.produced], by simp, fun _ => habort, h.aborts, fun hcaller => ?_,
        by simp, fun other hreturned => ?_⟩
      · have hunspawned := h.unstarted hcaller
        rw [htask] at hunspawned
        cases hunspawned
      · rcases h.returned other hreturned with hwon | hproduced
        · exact Or.inl hwon
        · simp [State.produced, htask] at hproduced

/-- The abort comes last, so whoever has not come as far has no task that was aborted. -/
theorem Delivering.unaborted (h : Delivering s) (hcaller : s.caller.finished = false) :
    s.abortRequested = false := by
  cases hrequested : s.abortRequested with
  | false => rfl
  | true =>
      have hfinished := h.aborts hrequested
      rw [hcaller] at hfinished
      cases hfinished

theorem Delivering.caller (h : Delivering s) (hgated : Gated s)
    (hstep : CallerStep installer manifest s s') : Delivering s' := by
  cases hstep with
  | subscribe hcaller | pending hcaller | unforced hcaller | stop hcaller | refuse hcaller =>
      have hquiet := h.unaborted (by rw [hcaller]; rfl)
      exact h.congr rfl rfl rfl id (by simp [hquiet])
        (by simp [hcaller, Caller.unstarted]) (by simp)
  | spawn hcaller =>
      have hquiet := h.unaborted (by rw [hcaller]; rfl)
      have hunspawned := h.unstarted (by rw [hcaller]; rfl)
      have hempty : ∀ outcome, s.channel ≠ .sent outcome := by
        intro outcome hsent
        simpa [State.produced, hunspawned] using (h.channel outcome).mp hsent
      refine ⟨fun outcome => by simp [State.produced, hempty], fun hclosed => ?_, by simp,
        by simp [hquiet], by simp [Caller.unstarted], by simp, by simp⟩
      have haborted := h.closed hclosed
      rw [hunspawned] at haborted
      cases haborted
  | @receive outcome hcaller hchannel =>
      refine h.congr rfl rfl rfl id (fun _ => rfl) (by simp [Caller.unstarted]) ?_
      rintro other ⟨rfl⟩
      exact Or.inr ((h.channel outcome).mp hchannel)
  | lost hcaller hchannel =>
      have hfinished := h.aborts (h.aborted (h.closed hchannel))
      rcases hcaller with hcaller | hcaller <;>
        (rw [hcaller] at hfinished; cases hfinished)
  | @request reason hcaller =>
      have hquiet := h.unaborted (by rw [hcaller]; rfl)
      cases hdecision : s.gate.requestCancel.1 with
      | cancelledBeforeCommit =>
          refine h.congr rfl rfl rfl id (by simp [hquiet]) ?_ (by simp [Reason.decided])
          cases reason <;> simp [Reason.decided, hcaller, Caller.unstarted]
      | alreadyCommitted =>
          cases reason with
          | refuse =>
              -- Without a task nobody can have crossed the gate.
              have hnone := h.unspawned (h.unstarted (by rw [hcaller]; rfl))
              have hcrossed := hgated.crossed.mpr (already_committed_crossed hdecision)
              rw [hnone] at hcrossed
              cases hcrossed
          | stop | drop =>
              exact h.congr rfl rfl rfl id (by simp [hquiet])
                (by simp [Reason.decided, Caller.unstarted]) (by simp [Reason.decided])
  | @signal reason hcaller =>
      have hquiet := h.unaborted (by rw [hcaller]; rfl)
      have hwon : s.gate = .cancelled :=
        hgated.trace (by simp [State.CancelTrace, hcaller, Caller.hasWon])
      cases reason with
      | refuse =>
          refine h.congr rfl rfl rfl id (fun _ => rfl) (by simp [Reason.signalled, Reason.cancelled,
            Caller.unstarted]) ?_
          rintro other ⟨rfl⟩
          exact Or.inl ⟨rfl, hwon⟩
      | stop | drop =>
          exact h.congr rfl rfl rfl id (by simp [hquiet])
            (by simp [Reason.signalled, Caller.unstarted]) (by simp [Reason.signalled])
  | @abort reason hcaller =>
      have hwon : s.gate = .cancelled :=
        hgated.trace (by simp [State.CancelTrace, hcaller, Caller.hasWon])
      cases reason with
      | refuse | stop =>
          refine h.congr rfl rfl rfl (fun _ => rfl) (fun _ => rfl)
            (by simp [Reason.cancelled, Caller.unstarted]) ?_
          rintro other ⟨rfl⟩
          exact Or.inl ⟨rfl, hwon⟩
      | drop =>
          exact h.congr rfl rfl rfl (fun _ => rfl) (fun _ => rfl)
            (by simp [Reason.cancelled, Caller.unstarted]) (by simp [Reason.cancelled])
  | unregister hcaller =>
      exact h.congr rfl rfl rfl id h.aborts id h.returned

theorem Delivering.shutdown (h : Delivering s) (hstep : ShutdownStep s s') : Delivering s' := by
  cases hstep with
  | request hact =>
      refine h.congr rfl rfl rfl id h.aborts id fun outcome hreturned => ?_
      rcases h.returned outcome hreturned with ⟨heq, hwon⟩ | hproduced
      · exact Or.inl ⟨heq, request_cancel_cancelled hwon⟩
      · exact Or.inr hproduced
  | force | dropInner | sweep | signal | publish | unheard =>
      exact h.congr rfl rfl rfl id h.aborts id h.returned

theorem Delivering.step (h : Delivering s) (hgated : Gated s)
    (hstep : Step installer manifest s s') : Delivering s' := by
  cases hstep with
  | task htask => exact h.task htask
  | caller hcaller => exact h.caller hgated hcaller
  | drop hcaller =>
      have hquiet := h.unaborted (by rcases hcaller with hcaller | hcaller <;> rw [hcaller] <;> rfl)
      exact h.congr rfl rfl rfl id (by simp [hquiet]) (by simp [Caller.unstarted]) (by simp)
  | shutdown hshutdown => exact h.shutdown hshutdown

variable (installer manifest) in
/-- However the caller goes on, it returns the outcome, unless it is dropped. -/
inductive Receives (outcome : Outcome) : State → Prop where
  | returned {s : State} (hcaller : s.caller = .returned outcome) : Receives outcome s
  | turn {s : State} (hmoves : ∃ s', CallerStep installer manifest s s')
      (h : ∀ s', CallerStep installer manifest s s' → Receives outcome s') : Receives outcome s

/-- A caller that polls the filled channel has its outcome. -/
theorem receives_filled {outcome : Outcome} (hchannel : s.channel = .sent outcome)
    (hcaller : s.caller = .waiting ∨ s.caller = .awaiting) :
    Receives installer manifest outcome s := by
  refine .turn ⟨_, .receive hcaller hchannel⟩ fun s' hstep => ?_
  cases hstep with
  | receive _ hother =>
      rw [hchannel] at hother
      cases hother
      exact .returned rfl
  | lost _ hother | pending _ hother =>
      rw [hchannel] at hother
      cases hother
  | subscribe hother | refuse hother | spawn hother | unforced hother | stop hother
  | request hother | signal hother | abort hother | unregister hother =>
      rcases hcaller with hcaller | hcaller <;> (rw [hcaller] at hother; cases hother)

/-- After the commit, a caller that still waits receives what the task has sent. -/
theorem receives_committed {outcome : Outcome} (hchannel : s.channel = .sent outcome)
    (hgate : s.gate = .crossed) (hcaller : s.caller.waits = true) :
    Receives installer manifest outcome s := by
  have hstop : ∀ a : State, a.channel = .sent outcome → a.gate = .crossed →
      a.caller = .cancelling .stop → Receives installer manifest outcome a := by
    intro a hchannel hgate hcaller
    refine .turn ⟨_, .request hcaller⟩ fun a' hstep => ?_
    cases hstep with
    | request hother =>
        rw [hcaller] at hother
        cases hother
        refine receives_filled hchannel (Or.inr ?_)
        simp [hgate, Gate.requestCancel, Reason.decided]
    | receive hother | lost hother =>
        rcases hother with hother | hother <;> (rw [hcaller] at hother; cases hother)
    | subscribe hother | refuse hother | spawn hother | pending hother | unforced hother
    | stop hother | signal hother | abort hother | unregister hother =>
        rw [hcaller] at hother
        cases hother
  cases hpoint : s.caller with
  | waiting => exact receives_filled hchannel (Or.inl hpoint)
  | awaiting => exact receives_filled hchannel (Or.inr hpoint)
  | polled =>
      refine .turn ?_ fun s' hstep => ?_
      · cases hforced : s.forced with
        | true => exact ⟨_, .stop hpoint hforced⟩
        | false => exact ⟨_, .unforced hpoint hforced⟩
      · cases hstep with
        | unforced => exact receives_filled hchannel (Or.inl rfl)
        | stop => exact hstop _ hchannel hgate rfl
        | receive hother | lost hother =>
            rcases hother with hother | hother <;> (rw [hpoint] at hother; cases hother)
        | subscribe hother | refuse hother | spawn hother | pending hother | request hother
        | signal hother | abort hother | unregister hother =>
            rw [hpoint] at hother
            cases hother
  | cancelling reason =>
      cases reason with
      | stop => exact hstop s hchannel hgate hpoint
      | refuse | drop =>
          rw [hpoint] at hcaller
          cases hcaller
  | begun | subscribed | signalling | aborting | returned | gone =>
      rw [hpoint] at hcaller
      cases hcaller

end Delivery

/-! ## What a cancelled installation leaves behind -/

/-- The result of an installation that has installed nothing. -/
def NothingInstalled : Outcome → Prop
  | .error error => error = .installFailed
  | .ok existing => existing.isInstalled = true

/-- The trees that are created after a cache. -/
def created (start : Cache) : Set Nat :=
  { tree | start.nextTree ≤ tree }

/-- The rest of the task installs nothing if the gate refuses. -/
def Task.Refused (trees : Set Nat) (key : String) (cache : Cache) : Task → Prop
  | .running rest => Program.wp refusing Set.univ Eq (fun _ s' => Withheld trees key s') rest
      (fun outcome _ => NothingInstalled outcome) cache
  | .sent outcome => NothingInstalled outcome
  | .ended outcome => NothingInstalled outcome
  | .unspawned => True
  | .aborted => True

/-- Unless the gate is crossed, what was downloaded is withheld. -/
def Refusable (installer : Installer) (manifest : Manifest) (start : Cache) (s : State) : Prop :=
  s.gate ≠ .crossed →
    Withheld (created start) (installer.store.key manifest) s.cache ∧
      s.task.Refused (created start) (installer.store.key manifest) s.cache

section Refusal

variable {installer : Installer} {manifest : Manifest} {start : Cache} {s s' : State}

theorem refusing_eq {op : FsOp} (hcommit : op ≠ .beginCommit) (choice : Choice) (s : Cache) :
    refusing choice s op = respond choice s op := by
  cases op <;> first | rfl | exact absurd rfl hcommit

/-- The spawned operation. -/
theorem operation_refused {trees : Set Nat} {cache : Cache}
    (h : Withheld trees (installer.store.key manifest) cache) :
    (Task.running (operation installer manifest)).Refused trees (installer.store.key manifest)
      cache := by
  refine Program.wp_map ((install_transaction_withholds h).imp fun result after hafter => ?_)
  cases result with
  | error error => rfl
  | ok existing => exact hafter.2

theorem Refusable.task (h : Refusable installer manifest start s)
    (hstep : TaskStep installer s s') : Refusable installer manifest start s' := by
  intro hgate
  cases hstep with
  | perform htask hpoll hcommit choice =>
      obtain ⟨hwithheld, hrefused⟩ := h hgate
      rw [htask] at hrefused
      obtain ⟨hafter, hnext⟩ := hrefused _ rfl choice (Set.mem_univ _)
      rw [refusing_eq hcommit] at hafter hnext
      exact ⟨hafter, hnext⟩
  | poll htask =>
      obtain ⟨hwithheld, hrefused⟩ := h hgate
      rw [htask] at hrefused
      exact ⟨hwithheld, (hrefused _ rfl { flag := s.cancelled } (Set.mem_univ _)).2⟩
  | beginCommit htask =>
      cases hold : s.gate with
      | opened => simp [hold, Gate.beginCommit] at hgate
      | crossed => simp [hold, Gate.beginCommit] at hgate
      | cancelled =>
          obtain ⟨hwithheld, hrefused⟩ := h (by simp [hold])
          rw [htask] at hrefused
          exact ⟨hwithheld, (hrefused _ rfl {} (Set.mem_univ _)).2⟩
  | send htask =>
      obtain ⟨hwithheld, hrefused⟩ := h hgate
      rw [htask] at hrefused
      exact ⟨hwithheld, hrefused _ rfl⟩
  | finish htask =>
      obtain ⟨hwithheld, hrefused⟩ := h hgate
      rw [htask] at hrefused
      exact ⟨hwithheld, hrefused⟩
  | abort htask =>
      obtain ⟨hwithheld, -⟩ := h hgate
      exact ⟨hwithheld.congr (fun _ => rfl) id, trivial⟩

theorem Refusable.step (h : Refusable installer manifest start s)
    (hstep : Step installer manifest s s') : Refusable installer manifest start s' := by
  -- A request does not reopen the gate.
  have hrequest : s.gate.requestCancel.2 ≠ .crossed → s.gate ≠ .crossed := by
    intro hafter hbefore
    exact hafter (by rw [hbefore]; rfl)
  rcases hstep with htask | hcaller | _ | hshutdown
  · exact h.task htask
  · cases hcaller with
    | spawn => exact fun hgate => ⟨(h hgate).1, operation_refused (h hgate).1⟩
    | request => exact fun hgate => h (hrequest hgate)
    | subscribe | refuse | receive | lost | pending | unforced | stop | signal | abort
    | unregister => exact h
  · exact h
  · cases hshutdown with
    | request => exact fun hgate => h (hrequest hgate)
    | force | dropInner | sweep | signal | publish | unheard => exact h

end Refusal

/-! ## Runs -/

/-- The invariant. -/
structure Sound (installer : Installer) (manifest : Manifest) (start : Cache) (s : State) :
    Prop where
  gated : Gated s
  delivering : Delivering s
  refusable : Refusable installer manifest start s

section Runs

variable {installer : Installer} {manifest : Manifest} {start : Cache} {s t : State}

theorem sound_initial (hstart : start.Numbered) :
    Sound installer manifest start (initial start) where
  gated := by constructor <;> simp [initial, State.CancelTrace, Caller.hasWon]
  delivering := by
    constructor <;> simp [initial, State.produced]
  refusable _ := by
    refine ⟨fun loc tree htree hmem => ?_, trivial⟩
    have hold := hstart loc tree htree
    exact absurd hmem (Nat.not_le.mpr hold)

theorem sound_run (hstart : start.Numbered)
    (hrun : Run (Step installer manifest) (initial start) s) :
    Sound installer manifest start s := by
  refine Preserves.run (fun a b ha hstep => ?_) hrun (sound_initial hstart)
  exact ⟨ha.gated.step hstep, ha.delivering.step ha.gated hstep, ha.refusable.step hstep⟩

theorem crossed_run (hrun : Run (Step installer manifest) t s) (h : t.gate = .crossed) :
    s.gate = .crossed := by
  induction hrun with
  | refl => exact h
  | tail _ hstep ih => exact hstep.crossed ih

/-- None of the trees that were created between two caches is installed in a third. -/
def Unpromoted (key : String) (start finish later : Cache) : Prop :=
  ∀ tree, later.entry (.models key) = some (.dir tree) →
    ¬ (start.nextTree ≤ tree.id ∧ tree.id < finish.nextTree)

/-- What an installation has downloaded before its gate is crossed, nobody ever promotes. -/
theorem Sound.unpromoted (h : Sound installer manifest start s) (hgate : s.gate ≠ .crossed)
    {later : Cache} (hlater : Aftermath s.cache later) :
    Unpromoted (installer.store.key manifest) start s.cache later := by
  have hfenced : Fenced { tree | start.nextTree ≤ tree ∧ tree < s.cache.nextTree }
      (installer.store.key manifest) s.cache :=
    ⟨fun loc tree htree hmem => (h.refusable hgate).1 loc tree htree hmem.1, fun _ hmem => hmem.2⟩
  exact fun tree htree hmem => (hlater.fenced hfenced).withheld.not_installed htree hmem

/-- A sent result of an installation whose gate was not crossed. -/
theorem Sound.nothing_installed (h : Sound installer manifest start s) (hgate : s.gate ≠ .crossed)
    {outcome : Outcome} (hproduced : s.produced = some outcome) : NothingInstalled outcome := by
  have hrefused := (h.refusable hgate).2
  unfold State.produced at hproduced
  split at hproduced
  · rename_i htask
    rw [htask] at hrefused
    exact Option.some.inj hproduced ▸ hrefused
  · rename_i htask
    rw [htask] at hrefused
    exact Option.some.inj hproduced ▸ hrefused
  · cases hproduced

/-- The commit gate decides once and for all. If a request has won, nothing that the installation
has downloaded so far is ever promoted, whatever any stores do afterwards, and the caller is told
that the runtime shuts down, or receives the result of a task that has installed nothing. If
`begin_commit` has won, no request ever wins, the task is not aborted, and the caller receives
exactly what the task produces. Once `begin_commit` was called, exactly one of the two holds. -/
theorem commit_gate_truthful (installer : Installer) (manifest : Manifest) {start : Cache}
    (hstart : start.Numbered) {s : State}
    (hrun : Run (Step installer manifest) (initial start) s) :
    (.cancelledBeforeCommit ∈ s.decisions →
      (∀ t, Run (Step installer manifest) (initial start) t → Run (Step installer manifest) t s →
        ∀ later, Aftermath t.cache later →
          Unpromoted (installer.store.key manifest) start t.cache later) ∧
      ∀ outcome, s.caller = .returned outcome →
        outcome = .error .shuttingDown ∨
          s.produced = some outcome ∧ NothingInstalled outcome) ∧
    (true ∈ s.commits →
      (∀ decision ∈ s.decisions, decision = .alreadyCommitted) ∧
      s.abortRequested = false ∧ s.task ≠ .aborted ∧
      (∀ outcome, s.caller = .returned outcome → s.produced = some outcome) ∧
      ∀ outcome, s.produced = some outcome → s.caller.waits = true →
        Receives installer manifest outcome s) ∧
    (s.commits ≠ [] → Xor (true ∈ s.commits) (.cancelledBeforeCommit ∈ s.decisions)) := by
  have hsound := sound_run hstart hrun
  have hgated := hsound.gated
  have hwon : .cancelledBeforeCommit ∈ s.decisions → s.gate = .cancelled :=
    fun hmem => hgated.trace (Or.inl hmem)
  refine ⟨fun hcancelled => ⟨fun t hbefore hafter later hlater => ?_, fun outcome hreturned => ?_⟩,
    fun hcommitted => ?_, fun hreached => ?_⟩
  · refine (sound_run hstart hbefore).unpromoted (fun hcrossed => ?_) hlater
    -- A gate that was crossed before stays so, but the cancellation has won it.
    have hnow := crossed_run hafter hcrossed
    rw [hwon hcancelled] at hnow
    cases hnow
  · rcases hsound.delivering.returned outcome hreturned with ⟨heq, -⟩ | hproduced
    · exact Or.inl heq
    · exact Or.inr ⟨hproduced, hsound.nothing_installed (by simp [hwon hcancelled]) hproduced⟩
  · have hcrossed := hgated.crossed.mp hcommitted
    -- A cancelled installation leaves traces, none of which is there behind a crossed gate.
    have hclean : ¬ s.CancelTrace := by
      intro htrace
      have hcancelled := hgated.trace htrace
      rw [hcrossed] at hcancelled
      cases hcancelled
    simp only [State.CancelTrace, not_or] at hclean
    obtain ⟨hdecisions, -, hquiet, -, -, hunaborted⟩ := hclean
    refine ⟨fun decision hmem => ?_, by simpa using hquiet, hunaborted, fun outcome hreturned => ?_,
      fun outcome hproduced hwaits => ?_⟩
    · cases decision with
      | alreadyCommitted => rfl
      | cancelledBeforeCommit => exact absurd hmem hdecisions
    · rcases hsound.delivering.returned outcome hreturned with ⟨-, hcancelled⟩ | hproduced
      · rw [hcrossed] at hcancelled
        cases hcancelled
      · exact hproduced
    · exact receives_committed ((hsound.delivering.channel outcome).mpr hproduced) hcrossed hwaits
  -- Whoever reached the gate found it as it is now, crossed or cancelled.
  · cases hgate : s.gate with
    | opened => exact absurd hgate (hgated.reached hreached)
    | cancelled =>
        refine Or.inr ⟨hgated.cancelled hgate, fun hcommitted => ?_⟩
        rw [hgated.crossed, hgate] at hcommitted
        cases hcommitted
    | crossed =>
        refine Or.inl ⟨hgated.crossed.mpr hgate, fun hcancelled => ?_⟩
        have hcontra := hwon hcancelled
        rw [hgate] at hcontra
        cases hcontra

end Runs

/-! ## A cancellation that the caller does not see -/

/-- An installer that may download the fixture. -/
def fixtureInstaller : Installer where
  store := ⟨.fixture [], [], 7, 0, 0⟩
  options :=
    { offline := false
      allowedOrigins := [⟨"https", some "example.invalid", some 443, "", none,
        "https://example.invalid"⟩]
      maxRedirects := 0
      maxArtifactBytes := 1
      maxArtifacts := 1
      maxTotalArtifactBytes := 1 }
  chunks := 1

/-- The shutdown has cancelled the installation and is about to publish `force_stop`; the task has
found its token cancelled, and the caller has received its error. -/
def failed : State where
  cache := .empty
  gate := .cancelled
  cancelled := true
  forced := false
  registered := true
  task := .sent (.error .installFailed)
  abortRequested := false
  channel := .sent (.error .installFailed)
  caller := .returned (.error .installFailed)
  shutdown := [.publish]
  decisions := [.cancelledBeforeCommit]
  commits := []

/-- An installation of an accepted manifest first polls its token, and a cancelled token ends it. -/
theorem operation_polls {installer : Installer} {manifest : Manifest}
    (hvalid : manifest.validate installer.store.ext = .ok ())
    (hsize : validateInstallSize installer.options manifest = .ok ()) :
    ∃ next, operation installer manifest = .perform .poll next ∧
      next (.ok true) = .done (.error .installFailed) := by
  unfold operation installTransaction statusWithCancel
  simp only [hvalid, hsize]
  exact ⟨_, rfl, rfl⟩

theorem failed_run : Run (Step fixtureInstaller .fixture) (initial .empty) failed := by
  obtain ⟨next, hoperation, hstop⟩ :=
    @operation_polls fixtureInstaller .fixture (by decide) (by decide)
  refine .head (.caller (.subscribe rfl)) (.head (.caller (.spawn rfl rfl)) ?_)
  -- The deadline of the shutdown passes, and it cancels the registered installation.
  refine .head (.shutdown (.force rfl)) (.head (.shutdown (.sweep rfl)) ?_)
  refine .head (.shutdown (.request rfl)) (.head (.shutdown (.signal rfl)) ?_)
  -- The task notices before `force_stop` is published.
  refine .head (.task (.poll (congrArg Task.running hoperation))) ?_
  refine .head (.task (.send (congrArg Task.running hstop))) ?_
  exact .single (.caller (.receive (.inl rfl) rfl))

/-- A caller whose installation was cancelled before its commit can see its failure instead of the
shutdown. -/
theorem cancelled_caller_sees_failure :
    ∃ s, Run (Step fixtureInstaller .fixture) (initial .empty) s ∧
      .cancelledBeforeCommit ∈ s.decisions ∧ s.caller = .returned (.error .installFailed) :=
  ⟨failed, failed_run, List.mem_singleton_self _, rfl⟩

theorem commit_gate_truthful_failed :
    (∀ later, Aftermath failed.cache later →
      Unpromoted (fixtureInstaller.store.key .fixture) .empty failed.cache later) ∧
    (∀ outcome, failed.caller = .returned outcome →
      outcome = .error .shuttingDown ∨
        failed.produced = some outcome ∧ NothingInstalled outcome) := by
  obtain ⟨hcancelled, -⟩ :=
    commit_gate_truthful fixtureInstaller .fixture Cache.numbered_empty failed_run
  obtain ⟨hunpromoted, hreturned⟩ := hcancelled (List.mem_singleton_self _)
  exact ⟨hunpromoted failed failed_run .refl, hreturned⟩

end EmbeddingServer.InstallGate
