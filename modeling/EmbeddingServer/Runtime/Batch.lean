import EmbeddingServer.Core.Control

/-!
# Native batch execution

`executeBatch` runs one batch on a native worker: it drops members that are no longer
active, makes one engine call over the concatenated inputs of the others, checks the
output against every member's contract, and cuts it into the members' responses.

Between any two checks another thread may cancel a request, let a deadline pass or
stop the model. The `n`-th check of a run therefore reads the `n`-th element of an
arbitrary stream of observations. The source sends each response on the request's own
one-shot channel; the model lists the responses in the order in which they are sent.
-/

namespace EmbeddingServer

/-- `identity_is_complete`: no field of the identity is blank. -/
def identityIsComplete (identity : ResolvedModelIdentity) : Bool :=
  [identity.canonicalId, identity.revision, identity.runtime, identity.artifactFingerprint,
    identity.semanticFingerprint].all fun value => !isBlank value

/-- `RuntimeModelContract`: the identity and native output width captured at preflight. -/
structure RuntimeModelContract where
  identity : ResolvedModelIdentity
  nativeDimensions : Nat
  native_pos : 0 < nativeDimensions
  complete : identityIsComplete identity = true

/-- The identity of a registered `ModelSlot`. -/
abbrev SlotId := Nat

/-- `QueuePermit`: one unit of the queue counter of a slot. -/
structure QueuePermit where
  slot : SlotId
  deriving DecidableEq, Repr

/-- `RuntimeLease`: one unit of the lease counter of a slot. -/
structure RuntimeLease where
  slot : SlotId
  deriving DecidableEq, Repr

/-- `Request`. `response` identifies the sending half of the caller's one-shot channel. -/
structure Request where
  sequence : Nat
  inputs : List String
  cost : EmbeddingBatchCost
  contract : RuntimeModelContract
  options : EmbedOptions
  control : ExecutionControl
  response : Nat
  lease : RuntimeLease
  queue : Option QueuePermit

/-- `request.queue.take()` followed by the drop of the permit. -/
def Request.releaseQueue (request : Request) : Request :=
  { request with queue := none }

/-- A response sent to a request. -/
structure Answer where
  request : Request
  result : Except EngineFailure EmbeddingOutput

/-- What a check observes: the model's `accepting` flag, and the clock and signals. -/
structure Observation where
  accepting : Bool
  moment : Moment

/-- The arguments of one `engine.embed` call. -/
structure EngineCall where
  model : RequestedModel
  batch : EmbeddingBatch
  control : ExecutionControl
  options : EmbedOptions

/-- How an engine call ends; a panic is caught by `catch_unwind`. -/
inductive EngineOutcome where
  | returned (result : Except EngineFailure EmbeddingOutput)
  | panicked

/-- The `embed` operation of a `RuntimeEngine`. -/
abbrev EngineEmbed := EngineCall → EngineOutcome

/-- `slice.get(first..last)`. -/
def getRange {α : Type} (values : List α) (first last : Nat) : Option (List α) :=
  if first ≤ last ∧ last ≤ values.length then some ((values.drop first).take (last - first))
  else none

/-- One iteration of the loop of `valid_engine_output`: the rows of one request meet its
contract. Returns the offset of the next request. -/
def validRows (output : EmbeddingOutput) (offset : Nat) (request : Request) (size : Nat) :
    Option Nat := do
  guard (request.contract.identity = output.model)
  let expectedDimensions := request.options.dimensions.getD request.contract.nativeDimensions
  let last ← Checked.add wordBits offset size
  let vectors ← getRange output.vectors offset last
  let inputTokens ← getRange output.usage.inputTokens offset last
  let expectedTokens ← if request.cost.tokens < 2 ^ 64 then some request.cost.tokens else none
  let actualTokens ← Checked.trySum 64 inputTokens
  guard (actualTokens = expectedTokens)
  guard (vectors.all fun vector =>
    vector.length == expectedDimensions && vector.all F32.isFinite)
  some last

/-- The loop of `valid_engine_output` over the requests and their sizes. -/
def validFrom (output : EmbeddingOutput) (total : Nat) : Nat → List (Request × Nat) → Bool
  | offset, [] => offset == total
  | offset, (request, size) :: rest =>
      match validRows output offset request size with
      | none => false
      | some next => validFrom output total next rest

/-- `valid_engine_output`. -/
def validEngineOutput (output : EmbeddingOutput) (requests : List Request) (sizes : List Nat) :
    Bool :=
  match Checked.trySum wordBits sizes with
  | none => false
  | some total =>
      if output.vectors.length ≠ total ∨ output.usage.inputTokens.length ≠ total ∨
          identityIsComplete output.model = false then false
      else validFrom output total 0 (requests.zip sizes)

/-- `publish_results`: cut the output into responses. `vectors` and `tokens` are what is left
of the two iterators, and `tick` counts the checks made so far. -/
def publishResults (checks : Nat → Observation) (model : ResolvedModelIdentity) :
    Nat → List (Request × Nat) → List (List F32) → List Nat → List Answer
  | _, [], _, _ => []
  | tick, (request, size) :: rest, vectors, tokens =>
      if (checks tick).accepting = false then
        ⟨request, .error (.public .modelUnavailable)⟩ ::
          publishResults checks model (tick + 1) rest (vectors.drop size) (tokens.drop size)
      else
        match request.control.ensureActive (checks (tick + 1)).moment with
        | .error error =>
            ⟨request, .error error⟩ ::
              publishResults checks model (tick + 2) rest (vectors.drop size) (tokens.drop size)
        | .ok () =>
            -- `by_ref().take(size).collect()` leaves both iterators past this request.
            match EmbeddingUsage.new (tokens.take size) with
            | .error _ =>
                ⟨request, .error (.public .inferenceFailed)⟩ ::
                  publishResults checks model (tick + 2) rest (vectors.drop size)
                    (tokens.drop size)
            | .ok usage =>
                ⟨request, .ok ⟨vectors.take size, model, usage⟩⟩ ::
                  publishResults checks model (tick + 2) rest (vectors.drop size)
                    (tokens.drop size)

/-- `fail_requests`: an inactive control wins over the given code. -/
def failRequests (checks : Nat → Observation) (code : ErrorCode) : Nat → List Request → List Answer
  | _, [] => []
  | tick, request :: rest =>
      let effective := match request.control.ensureActive (checks tick).moment with
        | .error error => error
        | .ok () => .public code
      ⟨request, .error effective⟩ :: failRequests checks code (tick + 1) rest

/-- The first loop of `execute_batch`: answer the members that are no longer active and keep
the others in order. Returns the answers, the active members and the number of checks made. -/
def activate (checks : Nat → Observation) : Nat → List Request →
    List Answer × List Request × Nat
  | tick, [] => ([], [], tick)
  | tick, member :: rest =>
      -- Queue accounting ends before native execution starts.
      let request := member.releaseQueue
      if (checks tick).accepting = false then
        let (answers, active, last) := activate checks (tick + 1) rest
        (⟨request, .error (.public .modelUnavailable)⟩ :: answers, active, last)
      else
        match request.control.ensureActive (checks (tick + 1)).moment with
        | .error error =>
            let (answers, active, last) := activate checks (tick + 2) rest
            (⟨request, .error error⟩ :: answers, active, last)
        | .ok () =>
            let (answers, active, last) := activate checks (tick + 2) rest
            (answers, request :: active, last)

/-- Everything one run of `execute_batch` does: the answers to members found inactive, the
members found active, the engine call if one is made, and the answers to the active members. -/
structure BatchRun where
  inactive : List Answer
  active : List Request
  call : Option EngineCall
  published : List Answer

/-- All responses of the run, in the order in which they are sent. -/
def BatchRun.answers (run : BatchRun) : List Answer :=
  run.inactive ++ run.published

/-- The part of `execute_batch` after the engine call. -/
def finishBatch (checks : Nat → Observation) (tick : Nat) (requests : List Request) :
    EngineOutcome → List Answer
  | .returned (.ok output) =>
      let sizes := requests.map fun request => request.inputs.length
      if validEngineOutput output requests sizes then
        publishResults checks output.model tick (requests.zip sizes) output.vectors
          output.usage.inputTokens
      else failRequests checks .inferenceFailed tick requests
  | .panicked => failRequests checks .inferenceFailed tick requests
  | .returned (.error error) => failRequests checks error.publicError.code tick requests

/-- `execute_batch`. -/
def executeBatch (engine : EngineEmbed) (modelId : String) (requests : List Request)
    (checks : Nat → Observation) : BatchRun :=
  let (inactive, active, tick) := activate checks 0 requests
  match active with
  | [] => ⟨inactive, [], none, []⟩
  | first :: _ =>
      match EmbeddingBatch.new (active.flatMap fun request => request.inputs) with
      | .error _ => ⟨inactive, active, none, failRequests checks .invalidRequest tick active⟩
      | .ok batch =>
          match RequestedModel.new modelId with
          | .error _ =>
              ⟨inactive, active, none, failRequests checks .modelUnavailable tick active⟩
          | .ok model =>
              let control := .composite (active.map fun request => request.control)
              let call : EngineCall := ⟨model, batch, control, first.options⟩
              ⟨inactive, active, some call, finishBatch checks tick active (engine call)⟩

end EmbeddingServer
