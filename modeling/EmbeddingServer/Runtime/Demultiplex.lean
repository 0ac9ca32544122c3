import EmbeddingServer.Lib.Segments
import EmbeddingServer.Runtime.Batch

/-!
# Demultiplexing a native batch

Which rows of the engine output a member of a batch receives. Read
`publish_results_cons` first: whatever a member is answered, publication continues
with both iterators advanced by the member's own number of inputs. The position of a
member's rows therefore depends only on the members found active before the engine
call (`publish_results_segment`), and `execute_batch_transparent` states it of the
whole run for every pattern of observations.
-/

namespace EmbeddingServer

/-- The number of inputs of a request. -/
def Request.size (request : Request) : Nat :=
  request.inputs.length

variable (checks : Nat → Observation)

/-- One step of publication: the next member is answered once, from the front of both
iterators, and the others continue past its rows. -/
theorem publish_results_cons (model : ResolvedModelIdentity) (tick : Nat) (request : Request)
    (size : Nat) (rest : List (Request × Nat)) (vectors : List (List F32)) (tokens : List Nat) :
    ∃ answer next,
      publishResults checks model tick ((request, size) :: rest) vectors tokens =
        answer :: publishResults checks model next rest (vectors.drop size) (tokens.drop size) ∧
      answer.request = request ∧
      ∀ output, answer.result = .ok output →
        output.vectors = vectors.take size ∧ output.usage.inputTokens = tokens.take size ∧
        output.model = model := by
  simp only [publishResults]
  split
  · exact ⟨_, _, rfl, rfl, by simp⟩
  · cases request.control.ensureActive (checks (tick + 1)).moment with
    | error error => exact ⟨_, _, rfl, rfl, by simp⟩
    | ok _ =>
        cases husage : EmbeddingUsage.new (tokens.take size) with
        | error error => exact ⟨_, _, rfl, rfl, by simp⟩
        | ok usage =>
            refine ⟨_, _, rfl, rfl, ?_⟩
            rintro output ⟨rfl⟩
            exact ⟨rfl, EmbeddingUsage.new_input_tokens husage, rfl⟩

/-- Publication answers every member once, in order. -/
theorem publish_results_requests (model : ResolvedModelIdentity) (tick : Nat)
    (members : List (Request × Nat)) (vectors : List (List F32)) (tokens : List Nat) :
    (publishResults checks model tick members vectors tokens).map Answer.request =
      members.map Prod.fst := by
  induction members generalizing tick vectors tokens with
  | nil => rfl
  | cons member rest ih =>
      obtain ⟨answer, next, heq, hrequest, _⟩ :=
        publish_results_cons checks model tick member.1 member.2 rest vectors tokens
      rw [heq, List.map_cons, ih, hrequest, List.map_cons]

/-- The member at position `k` that is answered `Ok` receives exactly its own segment of both
iterators. -/
theorem publish_results_segment (model : ResolvedModelIdentity) (tick : Nat)
    (members : List (Request × Nat)) (vectors : List (List F32)) (tokens : List Nat) (k : Nat)
    (answer : Answer) (output : EmbeddingOutput)
    (hk : (publishResults checks model tick members vectors tokens)[k]? = some answer)
    (hok : answer.result = .ok output) :
    ∃ member, members[k]? = some member ∧ answer.request = member.1 ∧
      output.vectors = Segments.segment Prod.snd members k member vectors ∧
      output.usage.inputTokens = Segments.segment Prod.snd members k member tokens ∧
      output.model = model := by
  induction members generalizing tick vectors tokens k with
  | nil => simp [publishResults] at hk
  | cons member rest ih =>
      obtain ⟨head, next, heq, hrequest, hhead⟩ :=
        publish_results_cons checks model tick member.1 member.2 rest vectors tokens
      rw [heq] at hk
      cases k with
      | zero =>
          obtain rfl : head = answer := by simpa using hk
          obtain ⟨hvectors, htokens, hmodel⟩ := hhead output hok
          exact ⟨member, rfl, hrequest, by simpa using hvectors, by simpa using htokens, hmodel⟩
      | succ k =>
          obtain ⟨owner, howner, hreq, hvectors, htokens, hmodel⟩ :=
            ih next _ _ k (by simpa using hk)
          exact ⟨owner, by simpa using howner, hreq, by simpa using hvectors,
            by simpa using htokens, hmodel⟩

/-- `fail_requests` answers every request once, in order. -/
theorem fail_requests_requests (code : ErrorCode) (tick : Nat) (requests : List Request) :
    (failRequests checks code tick requests).map Answer.request = requests := by
  induction requests generalizing tick with
  | nil => rfl
  | cons request rest ih => simp [failRequests, ih]

/-- `fail_requests` sends no output. -/
theorem fail_requests_error (code : ErrorCode) (tick : Nat) (requests : List Request) :
    ∀ answer ∈ failRequests checks code tick requests, ∃ error, answer.result = .error error := by
  induction requests generalizing tick with
  | nil => simp [failRequests]
  | cons request rest ih =>
      intro answer hmem
      simp only [failRequests, List.mem_cons] at hmem
      rcases hmem with rfl | hmem
      · exact ⟨_, rfl⟩
      · exact ih (tick + 1) answer hmem

/-- Members found inactive are answered with errors, and every member is either answered or
kept, in order. -/
theorem activate_spec (tick : Nat) (requests : List Request) :
    (∀ answer ∈ (activate checks tick requests).1, ∃ error, answer.result = .error error) ∧
    (activate checks tick requests).2.1.Sublist (requests.map Request.releaseQueue) ∧
    List.Perm ((activate checks tick requests).1.map Answer.request ++
        (activate checks tick requests).2.1)
      (requests.map Request.releaseQueue) := by
  induction requests generalizing tick with
  | nil => simp [activate]
  | cons member rest ih =>
      simp only [activate, List.map_cons]
      split
      · obtain ⟨herror, hsub, hperm⟩ := ih (tick + 1)
        exact ⟨by simpa using herror, hsub.cons _, by simpa using hperm⟩
      · cases member.releaseQueue.control.ensureActive (checks (tick + 1)).moment with
        | error error =>
            obtain ⟨herror, hsub, hperm⟩ := ih (tick + 2)
            exact ⟨by simpa using herror, hsub.cons _, by simpa using hperm⟩
        | ok _ =>
            obtain ⟨herror, hsub, hperm⟩ := ih (tick + 2)
            exact ⟨herror, hsub.cons_cons _, List.perm_middle.trans (hperm.cons _)⟩

/-- What happened before the engine call does not depend on what the call returns. -/
theorem execute_batch_activate (engine : EngineEmbed) (modelId : String)
    (requests : List Request) :
    (executeBatch engine modelId requests checks).inactive = (activate checks 0 requests).1 ∧
    (executeBatch engine modelId requests checks).active = (activate checks 0 requests).2.1 := by
  rcases hactivate : activate checks 0 requests with ⟨inactive, active, tick⟩
  cases active with
  | nil => simp [executeBatch, hactivate]
  | cons first rest =>
      simp only [executeBatch, hactivate]
      split
      · exact ⟨rfl, rfl⟩
      · split
        · exact ⟨rfl, rfl⟩
        · exact ⟨rfl, rfl⟩

/-- The engine call covers the inputs of the active members in order, with the options of the
first. -/
theorem execute_batch_call (engine : EngineEmbed) (modelId : String) (requests : List Request)
    (call : EngineCall) (h : (executeBatch engine modelId requests checks).call = some call) :
    ∃ first, (executeBatch engine modelId requests checks).active.head? = some first ∧
      call.options = first.options ∧
      call.batch.inputs =
        (executeBatch engine modelId requests checks).active.flatMap Request.inputs ∧
      (executeBatch engine modelId requests checks).published =
        finishBatch checks (activate checks 0 requests).2.2
          (executeBatch engine modelId requests checks).active (engine call) := by
  rcases hactivate : activate checks 0 requests with ⟨inactive, active, tick⟩
  cases active with
  | nil => simp [executeBatch, hactivate] at h
  | cons first rest =>
      simp only [executeBatch, hactivate] at h ⊢
      split at h
      · simp at h
      · rename_i batch hbatch
        split at h
        · simp at h
        · rename_i model hmodel
          simp only [Option.some.injEq] at h
          subst h
          refine ⟨first, rfl, rfl, ?_, rfl⟩
          unfold EmbeddingBatch.new at hbatch
          split at hbatch
          · cases hbatch
          · cases hbatch
            rfl

/-- Only a run that called the engine sends an output. -/
theorem execute_batch_no_call (engine : EngineEmbed) (modelId : String) (requests : List Request)
    (h : (executeBatch engine modelId requests checks).call = none) :
    ∀ answer ∈ (executeBatch engine modelId requests checks).published,
      ∃ error, answer.result = .error error := by
  rcases hactivate : activate checks 0 requests with ⟨inactive, active, tick⟩
  cases active with
  | nil => simp [executeBatch, hactivate]
  | cons first rest =>
      simp only [executeBatch, hactivate] at h ⊢
      split at h
      · exact fail_requests_error checks _ _ _
      · split at h
        · exact fail_requests_error checks _ _ _
        · simp at h

/-- A list of members with their sizes, as `publish_results` zips them. -/
theorem zip_sizes (requests : List Request) :
    requests.zip (requests.map fun request => request.inputs.length) =
      requests.map fun request => (request, request.size) := by
  induction requests with
  | nil => rfl
  | cons request rest ih => simp [ih, Request.size]

/-- Whatever the engine does, the active members are answered once each, in order. -/
theorem finish_batch_requests (tick : Nat) (active : List Request) (outcome : EngineOutcome) :
    (finishBatch checks tick active outcome).map Answer.request = active := by
  cases outcome with
  | panicked => exact fail_requests_requests checks _ _ _
  | returned result =>
      cases result with
      | error error => exact fail_requests_requests checks _ _ _
      | ok output =>
          simp only [finishBatch]
          split
          · rw [publish_results_requests, zip_sizes, List.map_map]
            exact List.map_id active
          · exact fail_requests_requests checks _ _ _

/-- After the engine call, a member answered `Ok` receives its own segment of an accepted
output. -/
theorem finish_batch_segment (tick : Nat) (active : List Request) (outcome : EngineOutcome)
    (k : Nat) (answer : Answer) (response : EmbeddingOutput)
    (hk : (finishBatch checks tick active outcome)[k]? = some answer)
    (hok : answer.result = .ok response) :
    ∃ output, outcome = .returned (.ok output) ∧
      validEngineOutput output active (active.map Request.size) = true ∧
      active[k]? = some answer.request ∧
      response.vectors = Segments.segment Request.size active k answer.request output.vectors ∧
      response.usage.inputTokens =
        Segments.segment Request.size active k answer.request output.usage.inputTokens := by
  have hfail : ∀ code, (failRequests checks code tick active)[k]? ≠ some answer := by
    intro code h
    obtain ⟨error, herror⟩ :=
      fail_requests_error checks code tick active answer (List.mem_of_getElem? h)
    rw [hok] at herror
    cases herror
  cases outcome with
  | panicked => exact absurd hk (hfail _)
  | returned result =>
      cases result with
      | error error => exact absurd hk (hfail _)
      | ok output =>
          simp only [finishBatch] at hk
          split at hk
          · rename_i hvalid
            rw [zip_sizes] at hk
            obtain ⟨member, hmember, hrequest, hvectors, htokens, _⟩ :=
              publish_results_segment checks _ _ _ _ _ k answer response hk hok
            rw [List.getElem?_map, Option.map_eq_some_iff] at hmember
            obtain ⟨request, hactive, rfl⟩ := hmember
            obtain rfl : answer.request = request := hrequest
            refine ⟨output, rfl, hvalid, hactive, ?_, ?_⟩
            · rw [hvectors, Segments.segment_owners_map]
            · rw [htokens, Segments.segment_owners_map]
          · exact absurd hk (hfail _)

/-- An engine that computes row by row: each row of its output depends only on that row's input
and on the options of the call. -/
def RowWise (engine : EngineEmbed) (row : String → EmbedOptions → List F32 × Nat) : Prop :=
  ∀ call output, engine call = .returned (.ok output) →
    output.vectors = call.batch.inputs.map (fun input => (row input call.options).1) ∧
    output.usage.inputTokens = call.batch.inputs.map (fun input => (row input call.options).2)

/-- For every engine, every list of requests and every stream of observations: the members
found active form an ordered sublist of the batch, nobody else is answered with an output, and
a member answered `Ok` receives exactly the vectors and token counts at positions
`[offset, offset + size)` of the accepted engine output, where `offset` sums the sizes of the
earlier active members. An engine that computes row by row therefore answers every member with
its own rows, whatever it was batched with. -/
theorem execute_batch_transparent (engine : EngineEmbed) (modelId : String)
    (requests : List Request) :
    let run := executeBatch engine modelId requests checks
    run.active.Sublist (requests.map Request.releaseQueue) ∧
    (∀ answer ∈ run.inactive, ∃ error, answer.result = .error error) ∧
    (∀ (k : Nat) (answer : Answer) (response : EmbeddingOutput),
      run.published[k]? = some answer → answer.result = .ok response →
      ∃ call output, run.call = some call ∧ engine call = .returned (.ok output) ∧
        validEngineOutput output run.active (run.active.map Request.size) = true ∧
        run.active[k]? = some answer.request ∧
        response.vectors =
          Segments.segment Request.size run.active k answer.request output.vectors ∧
        response.usage.inputTokens =
          Segments.segment Request.size run.active k answer.request output.usage.inputTokens) ∧
    (∀ row, RowWise engine row → ∀ answer ∈ run.answers, ∀ response,
      answer.result = .ok response →
      ∃ first, run.active.head? = some first ∧
        response.vectors =
          answer.request.inputs.map (fun input => (row input first.options).1) ∧
        response.usage.inputTokens =
          answer.request.inputs.map (fun input => (row input first.options).2) ∧
        ((∀ request ∈ requests, request.options = answer.request.options) →
          first.options = answer.request.options)) := by
  intro run
  have hactive := execute_batch_activate checks engine modelId requests
  obtain ⟨herror, hsub, _⟩ := activate_spec checks 0 requests
  rw [← hactive.1] at herror
  rw [← hactive.2] at hsub
  have hpublished : ∀ (k : Nat) (answer : Answer) (response : EmbeddingOutput),
      run.published[k]? = some answer → answer.result = .ok response →
      ∃ call output, run.call = some call ∧ engine call = .returned (.ok output) ∧
        validEngineOutput output run.active (run.active.map Request.size) = true ∧
        run.active[k]? = some answer.request ∧
        response.vectors =
          Segments.segment Request.size run.active k answer.request output.vectors ∧
        response.usage.inputTokens =
          Segments.segment Request.size run.active k answer.request
            output.usage.inputTokens := by
    intro k answer response hk hok
    cases hcall : run.call with
    | none =>
        -- Without a call nobody is answered with an output.
        obtain ⟨error, h⟩ := execute_batch_no_call checks engine modelId requests hcall answer
          (List.mem_of_getElem? hk)
        rw [hok] at h
        cases h
    | some call =>
        obtain ⟨_, _, _, _, hfinish⟩ := execute_batch_call checks engine modelId requests call hcall
        rw [hfinish] at hk
        obtain ⟨output, houtcome, hrest⟩ :=
          finish_batch_segment checks _ _ _ k answer response hk hok
        exact ⟨call, output, rfl, houtcome, hrest⟩
  refine ⟨hsub, herror, hpublished, ?_⟩
  intro row hrow answer hmem response hok
  have hmem : answer ∈ run.published := by
    rcases List.mem_append.mp hmem with hinactive | hmem
    · obtain ⟨error, h⟩ := herror answer hinactive
      rw [hok] at h
      cases h
    · exact hmem
  obtain ⟨k, hk⟩ := List.getElem?_of_mem hmem
  obtain ⟨call, output, hcall, houtcome, _, hmember, hvectors, htokens⟩ :=
    hpublished k answer response hk hok
  obtain ⟨first, hfirst, hoptions, hinputs, _⟩ :=
    execute_batch_call checks engine modelId requests call hcall
  obtain ⟨hrowVectors, hrowTokens⟩ := hrow call output houtcome
  -- The slice of the joined inputs that belongs to a member is its own inputs.
  have hown : Segments.segment Request.size run.active k answer.request
      (run.active.flatMap Request.inputs) = answer.request.inputs :=
    Segments.segment_flat_map Request.inputs run.active k answer.request hmember
  refine ⟨first, hfirst, ?_, ?_, ?_⟩
  · rw [hvectors, hrowVectors, hinputs, Segments.segment_map, hown, hoptions]
  · rw [htokens, hrowTokens, hinputs, Segments.segment_map, hown, hoptions]
  · intro hshared
    obtain ⟨original, horiginal, rfl⟩ :=
      List.mem_map.mp (hsub.subset (List.mem_of_head? hfirst))
    exact hshared original horiginal

end EmbeddingServer
