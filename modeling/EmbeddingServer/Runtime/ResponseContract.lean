import EmbeddingServer.Runtime.Demultiplex
import Mathlib.Data.Option.Basic

/-!
# What a successful response promises

The engine behind a batch is not trusted. Read `Honours` first: it is everything a
request may rely on when it is answered `Ok`. `valid_engine_output` tests the same facts
row by row over the undivided output, with checked offsets, and `publish_results`
divides the output again with two iterators; `valid_from_rows` and
`publish_results_segment` meet at `Segments.segment`. `every_response_honoured` adds
that each member of the batch is answered exactly once.

Token counts are words whose sum a usage record has already checked, so an engine
cannot return counts with a larger sum: `EmbeddingUsage.new_overflow` is what it gets
instead.
-/

namespace EmbeddingServer

/-- What the output sent to a request has to satisfy. -/
structure EmbeddingOutput.Honours (output : EmbeddingOutput) (request : Request) : Prop where
  vectors : output.vectors.length = request.inputs.length
  counts : output.usage.inputTokens.length = request.inputs.length
  width : ∀ vector ∈ output.vectors,
    vector.length = request.options.dimensions.getD request.contract.nativeDimensions
  finite : ∀ vector ∈ output.vectors, ∀ value ∈ vector, value.isFinite = true
  model : output.model = request.contract.identity
  complete : identityIsComplete output.model = true
  tokens : output.usage.inputTokens.sum = request.cost.tokens

/-- Counts whose sum is no word are refused before an output can carry them. -/
theorem EmbeddingUsage.new_overflow {tokens : List Nat} (h : 2 ^ wordBits ≤ tokens.sum) :
    EmbeddingUsage.new tokens = .error (.public .inferenceFailed) := by
  have hsum : Checked.trySum wordBits tokens = none := by
    cases htry : Checked.trySum wordBits tokens with
    | none => rfl
    | some total =>
        obtain ⟨rfl, hfits⟩ := Checked.try_sum_eq_some_iff.mp htry
        omega
  unfold EmbeddingUsage.new
  split
  · rfl
  · split
    · rfl
    · rename_i total htotal
      rw [hsum] at htotal
      cases htotal

/-! ## Validation -/

/-- A range inside the slice is the window of that length. -/
theorem get_range_some {α : Type} {values window : List α} {first last : Nat}
    (h : getRange values first last = some window) :
    window = (values.drop first).take (last - first) ∧ window.length = last - first := by
  unfold getRange at h
  split at h
  · rename_i hbounds
    cases h
    refine ⟨rfl, ?_⟩
    rw [List.length_take, List.length_drop]
    omega
  · cases h

/-- The facts that one iteration of `valid_engine_output` establishes about the rows at an
offset. -/
structure RowsValid (output : EmbeddingOutput) (offset : Nat) (request : Request) (size : Nat) :
    Prop where
  identity : request.contract.identity = output.model
  vectors : ((output.vectors.drop offset).take size).length = size
  counts : ((output.usage.inputTokens.drop offset).take size).length = size
  tokens : ((output.usage.inputTokens.drop offset).take size).sum = request.cost.tokens
  width : ∀ vector ∈ (output.vectors.drop offset).take size,
    vector.length = request.options.dimensions.getD request.contract.nativeDimensions
  finite : ∀ vector ∈ (output.vectors.drop offset).take size,
    ∀ value ∈ vector, value.isFinite = true

/-- An iteration that passes moves to the end of the rows it has checked. -/
theorem valid_rows_some {output : EmbeddingOutput} {offset next : Nat} {request : Request}
    {size : Nat} (h : validRows output offset request size = some next) :
    next = offset + size ∧ RowsValid output offset request size := by
  simp only [validRows, Option.bind_eq_bind, Option.bind_eq_some_iff,
    Checked.add_eq_some_iff] at h
  obtain ⟨_, hidentity, last, ⟨rfl, _⟩, vectors, hvectors, tokens, htokens, h⟩ := h
  have hcost : ∃ actual, Checked.trySum 64 tokens = some actual ∧
      actual = request.cost.tokens ∧
      (vectors.all fun vector =>
        vector.length == request.options.dimensions.getD request.contract.nativeDimensions &&
          vector.all F32.isFinite) = true ∧ offset + size = next := by
    split at h
    · simp only [Option.bind_some, Option.bind_eq_some_iff] at h
      obtain ⟨actual, hactual, _, hequal, _, hrows, hnext⟩ := h
      exact ⟨actual, hactual, (Option.guard_eq_some' _).mp hequal,
        (Option.guard_eq_some' _).mp hrows, Option.some.inj hnext⟩
    · cases h
  obtain ⟨actual, hactual, hequal, hrows, hnext⟩ := hcost
  obtain ⟨rfl, hlength⟩ := get_range_some hvectors
  obtain ⟨rfl, hcounts⟩ := get_range_some htokens
  rw [Nat.add_sub_cancel_left] at hlength hcounts hactual hrows
  obtain ⟨rfl, _⟩ := Checked.try_sum_eq_some_iff.mp hactual
  rw [List.all_eq_true] at hrows
  have hvector : ∀ vector ∈ (output.vectors.drop offset).take size,
      vector.length = request.options.dimensions.getD request.contract.nativeDimensions ∧
        ∀ value ∈ vector, value.isFinite = true := by
    intro vector hmem
    have hrow := hrows vector hmem
    rw [Bool.and_eq_true, beq_iff_eq, List.all_eq_true] at hrow
    exact hrow
  refine ⟨hnext.symm, (Option.guard_eq_some' _).mp hidentity, hlength, hcounts, hequal, ?_, ?_⟩
  · intro vector hmem
    exact (hvector vector hmem).1
  · intro vector hmem
    exact (hvector vector hmem).2

/-- The loop checks every member at the end of the rows of the members before it. -/
theorem valid_from_rows {output : EmbeddingOutput} {total offset : Nat}
    {members : List (Request × Nat)} (h : validFrom output total offset members = true)
    {k : Nat} {member : Request × Nat} (hk : members[k]? = some member) :
    RowsValid output (offset + Segments.offset Prod.snd members k) member.1 member.2 := by
  induction members generalizing offset k with
  | nil => simp at hk
  | cons first rest ih =>
      simp only [validFrom] at h
      cases hrows : validRows output offset first.1 first.2 with
      | none =>
          rw [hrows] at h
          cases h
      | some next =>
          rw [hrows] at h
          obtain ⟨rfl, hvalid⟩ := valid_rows_some hrows
          cases k with
          | zero =>
              obtain rfl : first = member := by simpa using hk
              exact hvalid
          | succ k =>
              have hrest := ih h (k := k) (by simpa using hk)
              rw [Segments.offset_cons_succ, ← Nat.add_assoc]
              exact hrest

/-- What an accepted output holds at the position of a member. -/
theorem valid_engine_output_rows {output : EmbeddingOutput} {active : List Request}
    (h : validEngineOutput output active (active.map Request.size) = true)
    {k : Nat} {request : Request} (hk : active[k]? = some request) :
    identityIsComplete output.model = true ∧
      RowsValid output (Segments.offset Request.size active k) request request.size := by
  unfold validEngineOutput at h
  split at h
  · cases h
  · split at h
    · cases h
    · rename_i hshape
      have hcomplete : identityIsComplete output.model = true := by
        cases hidentity : identityIsComplete output.model with
        | true => rfl
        | false => exact absurd (Or.inr (Or.inr hidentity)) hshape
      have hzip : active.zip (active.map Request.size) =
          active.map fun request => (request, request.size) := zip_sizes active
      rw [hzip] at h
      have hmember : (active.map fun request => (request, request.size))[k]? =
          some (request, request.size) := by
        rw [List.getElem?_map, hk]
        rfl
      have hrows := valid_from_rows h hmember
      have hoffset : Segments.offset Prod.snd
          (active.map fun request => (request, request.size)) k =
          Segments.offset Request.size active k := by
        unfold Segments.offset
        rw [← List.map_take, List.map_map]
        rfl
      rw [hoffset, Nat.zero_add] at hrows
      exact ⟨hcomplete, hrows⟩

/-! ## Publication -/

/-- Every response is sent with the identity of the output it was cut from. -/
theorem finish_batch_model {checks : Nat → Observation} {tick : Nat} {active : List Request}
    {outcome : EngineOutcome} {k : Nat} {answer : Answer} {response output : EmbeddingOutput}
    (hk : (finishBatch checks tick active outcome)[k]? = some answer)
    (hok : answer.result = .ok response) (houtcome : outcome = .returned (.ok output)) :
    response.model = output.model := by
  subst houtcome
  simp only [finishBatch] at hk
  split at hk
  · obtain ⟨_, _, _, _, _, hmodel⟩ :=
      publish_results_segment checks _ _ _ _ _ k answer response hk hok
    exact hmodel
  · obtain ⟨error, herror⟩ :=
      fail_requests_error checks _ _ _ answer (List.mem_of_getElem? hk)
    rw [hok] at herror
    cases herror

/-- The members found active are answered once each, in order, with or without a call. -/
theorem execute_batch_published (checks : Nat → Observation) (engine : EngineEmbed)
    (modelId : String) (requests : List Request) :
    (executeBatch engine modelId requests checks).published.map Answer.request =
      (executeBatch engine modelId requests checks).active := by
  rcases hactivate : activate checks 0 requests with ⟨inactive, active, tick⟩
  cases active with
  | nil => simp [executeBatch, hactivate]
  | cons first rest =>
      simp only [executeBatch, hactivate]
      split
      · exact fail_requests_requests checks _ tick _
      · split
        · exact fail_requests_requests checks _ tick _
        · exact finish_batch_requests checks tick _ _

/-- Every member of a batch is answered exactly once. -/
theorem execute_batch_answers (checks : Nat → Observation) (engine : EngineEmbed)
    (modelId : String) (requests : List Request) :
    List.Perm ((executeBatch engine modelId requests checks).answers.map Answer.request)
      (requests.map Request.releaseQueue) := by
  obtain ⟨hinactive, hactive⟩ := execute_batch_activate checks engine modelId requests
  obtain ⟨_, _, hperm⟩ := activate_spec checks 0 requests
  unfold BatchRun.answers
  rw [List.map_append, execute_batch_published, hinactive, hactive]
  exact hperm

/-- The segment of an accepted output that a member receives honours the member's contract. -/
theorem finish_batch_honours {checks : Nat → Observation} {tick : Nat} {active : List Request}
    {outcome : EngineOutcome} {k : Nat} {answer : Answer} {response : EmbeddingOutput}
    (hk : (finishBatch checks tick active outcome)[k]? = some answer)
    (hok : answer.result = .ok response) : response.Honours answer.request := by
  obtain ⟨output, houtcome, hvalid, hmember, hvectors, htokens⟩ :=
    finish_batch_segment checks tick active outcome k answer response hk hok
  have hmodel : response.model = output.model := finish_batch_model hk hok houtcome
  obtain ⟨hcomplete, hrows⟩ := valid_engine_output_rows hvalid hmember
  constructor
  · show response.vectors.length = answer.request.size
    rw [hvectors]
    exact hrows.vectors
  · show response.usage.inputTokens.length = answer.request.size
    rw [htokens]
    exact hrows.counts
  · rw [hvectors]
    exact hrows.width
  · rw [hvectors]
    exact hrows.finite
  · rw [hmodel]
    exact hrows.identity.symm
  · rw [hmodel]
    exact hcomplete
  · rw [htokens]
    exact hrows.tokens

/-- For every engine behaviour, every batch and every stream of observations: each member of
the batch is answered exactly once, and whatever is answered `Ok` has one vector and one token
count for each input, vectors of the width asked for or else of the recorded native width with
finite values only, the recorded and complete model identity, and token counts that add up to
the preflight cost. The run is a total function, so no engine output is indexed out of range. -/
theorem every_response_honoured (engine : EngineEmbed) (modelId : String)
    (requests : List Request) (checks : Nat → Observation) :
    let run := executeBatch engine modelId requests checks
    List.Perm (run.answers.map Answer.request) (requests.map Request.releaseQueue) ∧
    ∀ answer ∈ run.answers, ∀ output, answer.result = .ok output →
      output.Honours answer.request := by
  intro run
  refine ⟨execute_batch_answers checks engine modelId requests, ?_⟩
  intro answer hmem output hok
  rcases List.mem_append.mp hmem with hinactive | hpublished
  · -- a member found inactive is never sent an output
    obtain ⟨herror, _⟩ := activate_spec checks 0 requests
    rw [(execute_batch_activate checks engine modelId requests).1] at hinactive
    obtain ⟨error, h⟩ := herror answer hinactive
    rw [hok] at h
    cases h
  · cases hcall : run.call with
    | none =>
        obtain ⟨error, h⟩ :=
          execute_batch_no_call checks engine modelId requests hcall answer hpublished
        rw [hok] at h
        cases h
    | some call =>
        obtain ⟨_, _, _, _, hfinish⟩ :=
          execute_batch_call checks engine modelId requests call hcall
        rw [hfinish] at hpublished
        obtain ⟨k, hk⟩ := List.getElem?_of_mem hpublished
        exact finish_batch_honours hk hok

end EmbeddingServer
