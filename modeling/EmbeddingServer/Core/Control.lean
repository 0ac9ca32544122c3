import EmbeddingServer.Core.Contract

/-!
# Cancellation tokens and execution controls

A token is a signal of its own, a signal with constituents (`any`), or a composite
of controls. A control is a token with an optional deadline, or a composite that
stays active while one constituent is. Signals are atomic flags shared between
threads; a `Moment` is what one observation of the clock and of these flags sees,
and `ensureActive` is the check the source makes before it starts queued work or
publishes a result.
-/

namespace EmbeddingServer

/-- The identity of one shared `CancellationSignal`. -/
abbrev SignalId := Nat

/-- A point of the monotonic clock. -/
abbrev Instant := Nat

mutual
/-- `CancellationToken`, with the three cases of `CancellationState`. -/
inductive CancellationToken where
  | single (signal : SignalId)
  | any (signal : SignalId) (constituents : List CancellationToken)
  | composite (constituents : List ExecutionControl)

/-- `ExecutionControl`: `new` builds the first case and `composite` the second. -/
inductive ExecutionControl where
  | leaf (cancellation : CancellationToken) (deadline : Option Instant)
  | composite (constituents : List ExecutionControl)
end

/-- What one check observes: the clock and the flag of every signal. -/
structure Moment where
  now : Instant
  cancelled : SignalId → Bool

/-- `ExecutionControl::cancellation`: the shared token of a control. -/
def ExecutionControl.cancellation : ExecutionControl → CancellationToken
  | .leaf cancellation _ => cancellation
  | .composite constituents => .composite constituents

/-- The deadline of a leaf has passed. -/
def deadlinePassed (moment : Moment) (deadline : Option Instant) : Bool :=
  deadline.any fun at_ => decide (at_ ≤ moment.now)

mutual
/-- `CancellationToken::is_cancelled`. -/
def CancellationToken.isCancelled (moment : Moment) : CancellationToken → Bool
  | .single signal => moment.cancelled signal
  | .any signal constituents => moment.cancelled signal || anyCancelled moment constituents
  | .composite constituents => allInactive moment constituents

/-- Some token of the list is cancelled. -/
def anyCancelled (moment : Moment) : List CancellationToken → Bool
  | [] => false
  | token :: rest => token.isCancelled moment || anyCancelled moment rest

/-- `ExecutionControl::ensure_active`. Cancellation wins over a passed deadline. -/
def ExecutionControl.ensureActive (moment : Moment) :
    ExecutionControl → Except EngineFailure Unit
  | .leaf cancellation deadline =>
      if cancellation.isCancelled moment then .error (.public .cancelled)
      else if deadlinePassed moment deadline then .error (.public .deadlineExceeded)
      else .ok ()
  | .composite constituents =>
      if !allInactive moment constituents then .ok ()
      else if anyControlCancelled moment constituents then .error (.public .cancelled)
      else .error (.public .deadlineExceeded)

/-- Every control of the list is inactive. -/
def allInactive (moment : Moment) : List ExecutionControl → Bool
  | [] => true
  | control :: rest =>
      (match control.ensureActive moment with
        | .ok _ => false
        | .error _ => true) && allInactive moment rest

/-- The token of some control of the list is cancelled. -/
def anyControlCancelled (moment : Moment) : List ExecutionControl → Bool
  | [] => false
  | .leaf cancellation _ :: rest =>
      cancellation.isCancelled moment || anyControlCancelled moment rest
  | .composite constituents :: rest =>
      allInactive moment constituents || anyControlCancelled moment rest
end

/-- The control is active at the moment. -/
def ExecutionControl.active (moment : Moment) (control : ExecutionControl) : Bool :=
  match control.ensureActive moment with
  | .ok _ => true
  | .error _ => false

end EmbeddingServer
