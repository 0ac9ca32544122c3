import EmbeddingServer.Runtime.Batch
import EmbeddingServer.Runtime.Scheduler

/-!
# Admission of a request

The checks a request passes before it is enqueued: the limits `embed_inner` puts on its inputs
and the preflight job that `execute_preflight` runs on a pool worker. `PassedPreflight` says
that a request was built at the end of that path under a given policy.

The engine's two callbacks are parameters. Either may panic, which `catch_unwind` turns into
an inference failure.
-/

namespace EmbeddingServer

/-- `LifecycleError`. -/
inductive LifecycleError where
  | invalidPolicy
  | initializationFailed
  | shuttingDown
  | notFound
  | alreadyLoaded
  | inUse
  | loadFailed
  | installFailed
  | deleteFailed
  deriving DecidableEq, Repr

/-- `BatchPolicy::validate`. -/
def BatchPolicy.validate (policy : BatchPolicy) : Except LifecycleError BatchPolicy :=
  if policy.queueDepth = 0 ∨ policy.maxItems = 0 ∨ policy.maxInputBytes = 0 ∨
      policy.maxRequestBytes = 0 ∨ policy.maxTokens = 0 ∨ policy.maxBatchItems = 0 ∨
      policy.maxBatchTokens = 0 ∨ policy.blockingConcurrency = 0 ∨ policy.requestTimeout = 0 ∨
      policy.maxBatchItems < policy.maxItems ∨ policy.maxRequestBytes < policy.maxInputBytes ∨
      policy.maxBatchTokens < policy.maxTokens then
    .error .invalidPolicy
  else .ok policy

/-- The loop of `validate_raw_inputs`, with the bytes counted so far. -/
def validateRawFrom (maxInputBytes maxRequestBytes : Nat) :
    Nat → List String → Except EngineFailure Unit
  | _, [] => .ok ()
  | total, input :: rest =>
      if maxInputBytes < input.utf8ByteSize then .error (.public .invalidRequest)
      else
        match Checked.add wordBits total input.utf8ByteSize with
        | none => .error (.public .invalidRequest)
        | some total =>
            if maxRequestBytes < total then .error (.public .invalidRequest)
            else validateRawFrom maxInputBytes maxRequestBytes total rest

/-- `validate_raw_inputs`. -/
def validateRawInputs (inputs : List String) (maxInputBytes maxRequestBytes : Nat) :
    Except EngineFailure Unit :=
  validateRawFrom maxInputBytes maxRequestBytes 0 inputs

/-- What `embed_inner` checks of the inputs before it looks the model up. -/
def admitInputs (policy : BatchPolicy) (inputs : List String) : Except EngineFailure Unit :=
  if inputs = [] ∨ policy.maxItems < inputs.length then .error (.public .invalidRequest)
  else validateRawInputs inputs policy.maxInputBytes policy.maxRequestBytes

/-- The callbacks of a `RuntimeEngine` that preflight uses; `none` is a panic. -/
structure PreflightEngine where
  modelContract : RequestedModel → Option (Except EngineFailure RuntimeModelContract)
  preflight : RequestedModel → EmbeddingBatch → EmbedOptions →
    Option (Except EngineFailure EmbeddingBatchCost)

/-- `catch_unwind` around a callback. -/
def unwind {α : Type} (attempt : Option (Except EngineFailure α)) : Except EngineFailure α :=
  attempt.getD (.error (.public .inferenceFailed))

/-- `validate_runtime_contract`. -/
def validateRuntimeContract (requested : RequestedModel) (contract : RuntimeModelContract) :
    Except EngineFailure Unit :=
  if contract.nativeDimensions = 0 ∨ contract.identity.canonicalId ≠ requested.name ∨
      identityIsComplete contract.identity = false then .error (.public .inferenceFailed)
  else .ok ()

/-- `PreflightPlan`; the engine is passed separately. -/
structure PreflightPlan where
  sequence : Nat
  inputs : List String
  options : EmbedOptions
  control : ExecutionControl
  model : RequestedModel
  lease : RuntimeLease
  queue : QueuePermit
  maxTokens : Nat
  maxBatchTokens : Nat

/-- `PreflightSuccess`. -/
structure PreflightSuccess where
  sequence : Nat
  inputs : List String
  cost : EmbeddingBatchCost
  contract : RuntimeModelContract
  lease : RuntimeLease
  queue : QueuePermit

/-- The job of `execute_preflight`. Its two checks of the control observe two moments. -/
def preflightJob (engine : PreflightEngine) (plan : PreflightPlan) (before after : Moment) :
    Except EngineFailure PreflightSuccess := do
  plan.control.ensureActive before
  let contract ← unwind (engine.modelContract plan.model)
  validateRuntimeContract plan.model contract
  let batch ← EmbeddingBatch.new plan.inputs
  let cost ← unwind (engine.preflight plan.model batch plan.options)
  plan.control.ensureActive after
  if cost.items ≠ plan.inputs.length ∨ plan.maxTokens < cost.tokens then
    .error (.public .invalidRequest)
  else do
    let padded ← cost.paddedTokens
    if plan.maxBatchTokens < padded then .error (.public .invalidRequest)
    else .ok ⟨plan.sequence, plan.inputs, cost, contract, plan.lease, plan.queue⟩

/-- The `Request` that `embed_inner` builds out of a successful preflight. -/
def PreflightSuccess.toRequest (prepared : PreflightSuccess) (options : EmbedOptions)
    (control : ExecutionControl) (response : Nat) : Request :=
  { sequence := prepared.sequence
    inputs := prepared.inputs
    cost := prepared.cost
    contract := prepared.contract
    options := options
    control := control
    response := response
    lease := prepared.lease
    queue := some prepared.queue }

/-- The request went through `embed_inner` up to the channel, under the policy. -/
def PassedPreflight (policy : BatchPolicy) (request : Request) : Prop :=
  ∃ engine plan before after prepared response,
    admitInputs policy plan.inputs = .ok () ∧
    plan.maxTokens = policy.maxTokens ∧ plan.maxBatchTokens = policy.maxBatchTokens ∧
    preflightJob engine plan before after = .ok prepared ∧
    request = prepared.toRequest plan.options plan.control response

/-- The limits that a valid policy relates to each other. -/
theorem BatchPolicy.validate_ok {policy accepted : BatchPolicy}
    (h : policy.validate = .ok accepted) :
    accepted = policy ∧ 0 < policy.queueDepth ∧ policy.maxItems ≤ policy.maxBatchItems ∧
      policy.maxTokens ≤ policy.maxBatchTokens := by
  unfold BatchPolicy.validate at h
  split at h
  · cases h
  · rename_i hlimits
    cases h
    refine ⟨rfl, ?_⟩
    omega

/-- A cost that can be padded is padded to the exact product. -/
theorem EmbeddingBatchCost.padded_tokens_ok (cost : EmbeddingBatchCost) :
    cost.paddedTokens = .ok (cost.items * cost.maxSequenceLength) := by
  unfold EmbeddingBatchCost.paddedTokens
  rw [Checked.mul, if_pos cost.padded_fits]

/-- The result of a successful preflight keeps the plan and is within its limits. -/
theorem preflight_job_ok {engine : PreflightEngine} {plan : PreflightPlan} {before after : Moment}
    {prepared : PreflightSuccess} (h : preflightJob engine plan before after = .ok prepared) :
    prepared.inputs = plan.inputs ∧ prepared.cost.items = plan.inputs.length ∧
      prepared.cost.tokens ≤ plan.maxTokens ∧
      prepared.cost.items * prepared.cost.maxSequenceLength ≤ plan.maxBatchTokens := by
  simp only [preflightJob, Checked.bind_ok] at h
  obtain ⟨_, _, contract, _, _, _, batch, _, cost, _, _, _, h⟩ := h
  split at h
  · cases h
  · rename_i hlimits
    rw [EmbeddingBatchCost.padded_tokens_ok] at h
    rw [Checked.bind_ok] at h
    obtain ⟨padded, hpadded, h⟩ := h
    cases hpadded
    split at h
    · cases h
    · rename_i hwork
      cases h
      refine ⟨rfl, ?_, ?_, ?_⟩ <;> dsimp only <;> omega

/-- What every enqueued request satisfies. -/
structure Request.WithinLimits (policy : BatchPolicy) (request : Request) : Prop where
  counted : request.cost.items = request.inputs.length
  items : request.inputs.length ≤ policy.maxItems
  tokens : request.cost.tokens ≤ policy.maxTokens
  work : request.inputs.length * request.cost.maxSequenceLength ≤ policy.maxBatchTokens

/-- A request that passed preflight is within the limits of the policy. -/
theorem PassedPreflight.within_limits {policy : BatchPolicy} {request : Request}
    (h : PassedPreflight policy request) : request.WithinLimits policy := by
  obtain ⟨engine, plan, before, after, prepared, response, hpassed, htokens, hbatch, hjob, rfl⟩ := h
  obtain ⟨hinputs, hitems, hcost, hwork⟩ := preflight_job_ok hjob
  have hcount : plan.inputs.length ≤ policy.maxItems := by
    unfold admitInputs at hpassed
    split at hpassed
    · cases hpassed
    · omega
  constructor
  · show prepared.cost.items = prepared.inputs.length
    rw [hinputs, hitems]
  · show prepared.inputs.length ≤ policy.maxItems
    rw [hinputs]
    exact hcount
  · show prepared.cost.tokens ≤ policy.maxTokens
    rw [← htokens]
    exact hcost
  · show prepared.inputs.length * prepared.cost.maxSequenceLength ≤ policy.maxBatchTokens
    rw [hinputs, ← hitems, ← hbatch]
    exact hwork

end EmbeddingServer
