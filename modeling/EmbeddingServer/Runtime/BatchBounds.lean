import EmbeddingServer.Runtime.Demultiplex
import EmbeddingServer.Runtime.Preflight
import EmbeddingServer.Runtime.SchedulerAccounting

/-!
# Native calls stay within policy

The padded work of a batch is its number of rows times its longest sequence, so one long
request re-prices every row before it. `BatchBuild.Bounded` is the invariant of the scan that
builds a batch: its two totals are the exact ones of the members chosen so far, and both bounds
hold for them. Members dropped before the call only lower the number of rows.
-/

namespace EmbeddingServer

/-- The rows of a list of requests. -/
def rowCount (requests : List Request) : Nat :=
  (requests.map Request.size).sum

/-- The largest `max_sequence_length` among the costs of requests. -/
def largestSequence (requests : List Request) : Nat :=
  (requests.map fun request => request.cost.maxSequenceLength).foldr max 0

@[simp] theorem row_count_append (left right : List Request) :
    rowCount (left ++ right) = rowCount left + rowCount right := by
  simp [rowCount]

@[simp] theorem row_count_release (requests : List Request) :
    rowCount (requests.map Request.releaseQueue) = rowCount requests := by
  unfold rowCount
  rw [List.map_map]
  rfl

@[simp] theorem largest_sequence_release (requests : List Request) :
    largestSequence (requests.map Request.releaseQueue) = largestSequence requests := by
  simp [largestSequence, Function.comp_def, Request.releaseQueue]

/-- A request added at the end. -/
theorem largest_sequence_concat (requests : List Request) (last : Request) :
    largestSequence (requests ++ [last]) =
      max (largestSequence requests) last.cost.maxSequenceLength := by
  induction requests with
  | nil => simp [largestSequence]
  | cons request rest ih =>
      simp only [largestSequence, List.cons_append, List.map_cons, List.foldr_cons] at ih ⊢
      rw [ih, max_assoc]

/-- Fewer members have fewer rows. -/
theorem row_count_sublist {few many : List Request} (h : few.Sublist many) :
    rowCount few ≤ rowCount many := by
  induction h with
  | slnil => exact Nat.le_refl _
  | cons request _ ih => exact ih.trans (Nat.le_add_left _ _)
  | cons_cons request _ ih => exact Nat.add_le_add_left ih _

/-- Fewer members are not longer. -/
theorem largest_sequence_sublist {few many : List Request} (h : few.Sublist many) :
    largestSequence few ≤ largestSequence many := by
  induction h with
  | slnil => exact Nat.le_refl _
  | cons request _ ih => exact ih.trans (le_max_right _ _)
  | cons_cons request _ ih => exact max_le_max (Nat.le_refl _) ih

/-- A batch within the bounds of the policy: one set of options, its rows, its padded work. -/
structure BatchWithin (policy : BatchPolicy) (key : EmbedOptions) (requests : List Request) :
    Prop where
  options : ∀ request ∈ requests, request.options = key
  occupied : ∀ request ∈ requests, 0 < request.size
  rows : rowCount requests ≤ policy.maxBatchItems
  work : rowCount requests * largestSequence requests ≤ policy.maxBatchTokens

/-- The invariant of the scan: the totals are exact, fit in machine words and stay in bounds. -/
structure BatchBuild.Bounded (policy : BatchPolicy) (key : EmbedOptions) (build : BatchBuild) :
    Prop extends BatchWithin policy key build.requests where
  items_eq : build.items = rowCount build.requests
  sequence_eq : build.maxSequenceLength = largestSequence build.requests
  items_fit : build.items < 2 ^ wordBits
  work_fits : build.items * build.maxSequenceLength < 2 ^ wordBits

/-- A request within limits has a row. -/
theorem Request.WithinLimits.size_pos {policy : BatchPolicy} {request : Request}
    (h : request.WithinLimits policy) : 0 < request.size := by
  unfold Request.size
  rw [← h.counted]
  exact request.cost.items_pos

/-- A single request that passed preflight is a batch in bounds. -/
theorem Request.WithinLimits.singleton {policy : BatchPolicy} {request : Request}
    (hpolicy : policy.maxItems ≤ policy.maxBatchItems) (h : request.WithinLimits policy)
    (pending : List Request) :
    BatchBuild.Bounded policy request.options
      ⟨[request], request.inputs.length, request.cost.maxSequenceLength, pending⟩ := by
  have hrows : rowCount [request] = request.inputs.length := by
    simp [rowCount, Request.size]
  have hlargest : largestSequence [request] = request.cost.maxSequenceLength := by
    simp [largestSequence]
  have hfits : request.inputs.length * request.cost.maxSequenceLength < 2 ^ wordBits := by
    rw [← h.counted]
    exact request.cost.padded_fits
  refine ⟨⟨?_, ?_, ?_, ?_⟩, hrows.symm, hlargest.symm, ?_, hfits⟩
  · simp
  · simpa using h.size_pos
  · show rowCount [request] ≤ policy.maxBatchItems
    rw [hrows]
    exact h.items.trans hpolicy
  · show rowCount [request] * largestSequence [request] ≤ policy.maxBatchTokens
    rw [hrows, hlargest]
    exact h.work
  · exact Nat.lt_of_le_of_lt (Nat.le_mul_of_pos_right _ request.cost.length_pos) hfits

/-- One step of the scan keeps the totals exact and within the bounds. -/
theorem scan_step_bounded {policy : BatchPolicy} {key : EmbedOptions} {build : BatchBuild}
    (h : build.Bounded policy key) (hpending : ∀ request ∈ build.pending, 0 < request.size) :
    (scanStep policy key build).Bounded policy key := by
  have hrotate : ∀ pending, BatchBuild.Bounded policy key { build with pending := pending } :=
    fun _ => ⟨h.toBatchWithin, h.items_eq, h.sequence_eq, h.items_fit, h.work_fits⟩
  unfold scanStep
  split
  · exact h
  · rename_i candidate rest hcandidates
    split
    · exact hrotate _
    · rename_i combined hcombined
      rw [Checked.add_eq_some_iff] at hcombined
      obtain ⟨hcombined, hcombinedFits⟩ := hcombined
      dsimp only
      split
      · -- The candidate joins: its length may re-price the rows chosen before it.
        rename_i hcompatible
        simp only [compatible, Bool.and_eq_true, decide_eq_true_eq, Option.any_eq_true,
          Checked.mul_eq_some_iff] at hcompatible
        obtain ⟨⟨hoptions, hitems⟩, work, ⟨hwork, hworkFits⟩, hworkBound⟩ := hcompatible
        have hrows : rowCount (build.requests ++ [candidate]) = combined := by
          rw [row_count_append, ← h.items_eq, ← hcombined]
          simp [rowCount, Request.size]
        have hlargest : largestSequence (build.requests ++ [candidate]) =
            max build.maxSequenceLength candidate.cost.maxSequenceLength := by
          rw [largest_sequence_concat, h.sequence_eq]
        refine ⟨⟨?_, ?_, ?_, ?_⟩, hrows.symm, hlargest.symm, hcombinedFits, ?_⟩
        · intro request hrequest
          rw [List.mem_append, List.mem_singleton] at hrequest
          rcases hrequest with hrequest | rfl
          · exact h.options request hrequest
          · exact hoptions
        · intro request hrequest
          rw [List.mem_append, List.mem_singleton] at hrequest
          rcases hrequest with hrequest | rfl
          · exact h.occupied request hrequest
          · exact hpending _ (by rw [hcandidates]; exact List.mem_cons_self)
        · show rowCount (build.requests ++ [candidate]) ≤ policy.maxBatchItems
          rw [hrows]
          exact hitems
        · show rowCount (build.requests ++ [candidate]) *
            largestSequence (build.requests ++ [candidate]) ≤ policy.maxBatchTokens
          rw [hrows, hlargest, hwork]
          exact hworkBound
        · show combined * max build.maxSequenceLength candidate.cost.maxSequenceLength <
            2 ^ wordBits
          rw [hwork]
          exact hworkFits
      · exact hrotate _

/-- The whole scan keeps the totals exact and within the bounds. -/
theorem scan_bounded {policy : BatchPolicy} {key : EmbedOptions} (count : Nat)
    {build : BatchBuild} (h : build.Bounded policy key)
    (hpending : ∀ request ∈ build.pending, 0 < request.size) :
    (scan policy key count build).Bounded policy key := by
  induction count generalizing build with
  | zero => exact h
  | succ count ih =>
      have hstep := scan_step_bounded h hpending
      refine ih hstep ?_
      intro request hrequest
      have hmember : request ∈ build.requests ++ build.pending :=
        (scan_step_perm policy key build).subset (List.mem_append_right _ hrequest)
      rw [List.mem_append] at hmember
      rcases hmember with hchosen | hpendingMember
      · exact h.occupied request hchosen
      · exact hpending request hpendingMember

/-- The first request stays in the batch built for it. -/
theorem scan_keeps {policy : BatchPolicy} {key : EmbedOptions} (count : Nat) (build : BatchBuild)
    {request : Request} (h : request ∈ build.requests) :
    request ∈ (scan policy key count build).requests := by
  induction count generalizing build with
  | zero => exact h
  | succ count ih =>
      apply ih
      unfold scanStep
      split
      · exact h
      · split
        · exact h
        · dsimp only
          split
          · exact List.mem_append_left _ h
          · exact h

/-- What one `engine.embed` call of `execute_batch` looks like, for a batch in bounds. -/
structure CallWithin (policy : BatchPolicy) (members : List Request) (run : BatchRun)
    (call : EngineCall) : Prop where
  /-- The call is made for members of the batch, with their inputs in order. -/
  inputs : call.batch.inputs = run.active.flatMap Request.inputs
  active : run.active.Sublist (members.map Request.releaseQueue)
  options : ∀ request ∈ run.active, request.options = call.options
  nonempty : 1 ≤ call.batch.inputs.length
  rows : call.batch.inputs.length ≤ policy.maxBatchItems
  /-- Also with the longest of all members that were dispatched. -/
  work_dispatched : call.batch.inputs.length * largestSequence members ≤ policy.maxBatchTokens
  work : call.batch.inputs.length * largestSequence run.active ≤ policy.maxBatchTokens

/-- The rows of a call are the inputs of its members. -/
theorem length_flat_map_inputs (requests : List Request) :
    (requests.flatMap Request.inputs).length = rowCount requests := by
  rw [List.length_flatMap]
  rfl

/-- A call for a batch in bounds is in bounds, whatever members are dropped before it. -/
theorem execute_batch_within {policy : BatchPolicy} {key : EmbedOptions} {members : List Request}
    (h : BatchWithin policy key members) (engine : EngineEmbed) (modelId : String)
    (checks : Nat → Observation) {call : EngineCall}
    (hcall : (executeBatch engine modelId members checks).call = some call) :
    CallWithin policy members (executeBatch engine modelId members checks) call := by
  obtain ⟨first, hfirst, hoptions, hinputs, _⟩ :=
    execute_batch_call checks engine modelId members call hcall
  have hactive : (executeBatch engine modelId members checks).active.Sublist
      (members.map Request.releaseQueue) := by
    rw [(execute_batch_activate checks engine modelId members).2]
    exact (activate_spec checks 0 members).2.1
  generalize (executeBatch engine modelId members checks) = run at *
  have hmember : ∀ request ∈ run.active, ∃ member ∈ members,
      member.releaseQueue = request := fun request hrequest =>
    List.mem_map.mp (hactive.subset hrequest)
  have hkey : ∀ request ∈ run.active, request.options = key := by
    intro request hrequest
    obtain ⟨member, hmem, rfl⟩ := hmember request hrequest
    exact h.options member hmem
  have hheadMem : first ∈ run.active := List.mem_of_mem_head? hfirst
  have hrows : call.batch.inputs.length = rowCount run.active := by
    rw [hinputs, length_flat_map_inputs]
  have hfew : rowCount run.active ≤ rowCount members := by
    rw [← row_count_release members]
    exact row_count_sublist hactive
  have hshort : largestSequence run.active ≤ largestSequence members := by
    rw [← largest_sequence_release members]
    exact largest_sequence_sublist hactive
  refine ⟨hinputs, hactive, ?_, ?_, ?_, ?_, ?_⟩
  · intro request hrequest
    rw [hoptions, hkey request hrequest, hkey first hheadMem]
  · exact List.length_pos_of_ne_nil call.batch.nonempty
  · rw [hrows]
    exact hfew.trans h.rows
  · rw [hrows]
    exact (Nat.mul_le_mul_right _ hfew).trans h.work
  · rw [hrows]
    exact (Nat.mul_le_mul hfew hshort).trans h.work

/-! ## Every batch of every run -/

/-- The batches given to `dispatch_batch`, oldest first. -/
def SchedulerState.batches (s : SchedulerState) : List (List Request) :=
  s.cells.map Cell.batch

/-- A batch that the round builds out of admitted requests is in bounds. -/
theorem form_batch_bounded {policy : BatchPolicy} (hpolicy : policy.maxItems ≤ policy.maxBatchItems)
    {first : Request} {rest : List Request} (hfirst : first.WithinLimits policy)
    (hrest : ∀ request ∈ rest, request.WithinLimits policy) :
    (formBatch policy first rest).Bounded policy first.options :=
  scan_bounded _ (hfirst.singleton hpolicy rest) fun request hrequest =>
    (hrest request hrequest).size_pos

/-- A worker changes no batch. -/
theorem WorkerStep.batches {modelId : String} {s s' : SchedulerState}
    (hstep : WorkerStep modelId s s') :
    s'.batches = s.batches ∧ s'.pending = s.pending ∧ s'.channel = s.channel ∧
      s'.arrived = s.arrived := by
  cases hstep with
  | take earlier cell later hcells | run earlier cell later owned engine checks hcells
  | skip earlier cell later hcells =>
      simp [SchedulerState.batches, hcells]

/-- What a step of the task does to the requests it holds: a batch is added only by a round,
built out of the deque, and the deque only takes requests off the channel. -/
theorem TaskStep.batches {policy : BatchPolicy} {s s' : SchedulerState}
    (hstep : TaskStep policy s s') :
    s'.arrived = s.arrived ∧ s'.channel ⊆ s.channel ∧ s'.pending ⊆ s.pending ++ s.channel ∧
      (s'.batches = s.batches ∨ ∃ first rest, s.pending = first :: rest ∧
        s'.batches = s.batches ++ [(formBatch policy first rest).requests]) := by
  cases hstep with
  | top_stop | top_idle | top_collect | idle_stop | idle_changed | idle_closed | collect_stop
  | collect_changed | collect_timer | collect_closed | collected_stop | round_done | yielded
  | round_end_break | round_end_loop | drain_empty =>
      exact ⟨rfl, fun _ h => h, List.subset_append_left _ _, .inl rfl⟩
  | idle_recv request rest _ hchannel | collect_recv request rest _ hchannel =>
      rw [hchannel]
      refine ⟨rfl, List.subset_cons_self _ _, ?_, .inl rfl⟩
      intro member hmember
      rw [List.mem_append, List.mem_singleton] at hmember
      rcases hmember with hmember | rfl
      · exact List.mem_append_left _ hmember
      · exact List.mem_append_right _ List.mem_cons_self
  | collected_sort =>
      refine ⟨rfl, fun _ h => h, ?_, .inl rfl⟩
      intro member hmember
      exact List.mem_append_left _ ((List.mergeSort_perm _ _).subset hmember)
  | round_inactive first rest moment error _ hpending =>
      refine ⟨rfl, fun _ h => h, ?_, .inl rfl⟩
      rw [hpending]
      exact fun member hmember => List.mem_append_left _ (List.mem_cons_of_mem _ hmember)
  | round_dispatch first rest moment _ hpending =>
      refine ⟨rfl, fun _ h => h, ?_, .inr ⟨first, rest, hpending, ?_⟩⟩
      · intro member hmember
        rw [hpending]
        exact List.mem_append_left _
          ((scan_perm policy _ _ _).subset (List.mem_append_right _ hmember))
      · simp [SchedulerState.batches]
  | pool_accept earlier cell _ hcells | pool_full earlier cell _ hcells
  | recover earlier cell requests checks _ hcells | recover_none earlier cell _ hcells =>
      refine ⟨rfl, fun _ h => h, List.subset_append_left _ _, .inl ?_⟩
      simp [SchedulerState.batches, hcells]
  | drain_pending => exact ⟨rfl, fun _ h => h, List.nil_subset _, .inl rfl⟩
  | drain_recv request rest checks _ hchannel =>
      refine ⟨rfl, ?_, List.subset_append_left _ _, .inl rfl⟩
      rw [hchannel]
      exact List.subset_cons_self _ _

/-- The task holds only requests that have arrived; if these are all within the limits, every
batch is in bounds. -/
structure SchedulerState.Orderly (policy : BatchPolicy) (s : SchedulerState) : Prop where
  channel : s.channel ⊆ s.arrived
  pending : s.pending ⊆ s.arrived
  batches : (∀ request ∈ s.arrived, request.WithinLimits policy) →
    ∀ batch ∈ s.batches, ∃ key, BatchWithin policy key batch

/-- Every step keeps the batches in bounds. -/
theorem scheduler_step_orderly {policy : BatchPolicy} (modelId : String)
    (hpolicy : policy.maxItems ≤ policy.maxBatchItems) :
    Transition.Preserves (SchedulerStep policy modelId) (SchedulerState.Orderly policy) := by
  intro s s' h hstep
  cases hstep with
  | env hstep =>
      cases hstep with
      | arrive request =>
          refine ⟨?_, ?_, ?_⟩
          · exact List.append_subset.mpr
              ⟨fun member hmember => List.mem_append_left _ (h.channel hmember),
                List.subset_append_right _ _⟩
          · exact fun member hmember => List.mem_append_left _ (h.pending hmember)
          · intro hlimits
            exact h.batches fun member hmember => hlimits member (List.mem_append_left _ hmember)
      | dropSenders | sendStop | dropStopSender | setAccepting =>
          exact ⟨h.channel, h.pending, h.batches⟩
  | worker hstep =>
      obtain ⟨hbatches, hpending, hchannel, harrived⟩ := hstep.batches
      constructor
      · rw [hchannel, harrived]
        exact h.channel
      · rw [hpending, harrived]
        exact h.pending
      · rw [hbatches, harrived]
        exact h.batches
  | task hstep =>
      obtain ⟨harrived, hchannel, hpending, hbatches⟩ := hstep.batches
      constructor
      · rw [harrived]
        exact fun member hmember => h.channel (hchannel hmember)
      · rw [harrived]
        intro member hmember
        rcases List.mem_append.mp (hpending hmember) with hmember | hmember
        · exact h.pending hmember
        · exact h.channel hmember
      · rw [harrived]
        intro hlimits batch hbatch
        rcases hbatches with hsame | ⟨first, rest, hdeque, hadded⟩
        · rw [hsame] at hbatch
          exact h.batches hlimits batch hbatch
        · rw [hadded, List.mem_append, List.mem_singleton] at hbatch
          rcases hbatch with hbatch | rfl
          · exact h.batches hlimits batch hbatch
          -- The batch is formed from the deque, whose requests have all arrived.
          · have hheld : ∀ request ∈ first :: rest, request.WithinLimits policy := by
              intro request hrequest
              rw [← hdeque] at hrequest
              exact hlimits request (h.pending hrequest)
            rw [List.forall_mem_cons] at hheld
            exact ⟨first.options, (form_batch_bounded hpolicy hheld.1 hheld.2).toBatchWithin⟩

/-- In every reachable state. -/
theorem scheduler_reachable_orderly {policy : BatchPolicy} {modelId : String}
    (hpolicy : policy.maxItems ≤ policy.maxBatchItems) {s : SchedulerState}
    (h : SchedulerReachable policy modelId s) : s.Orderly policy := by
  refine (scheduler_step_orderly modelId hpolicy).run h ⟨?_, ?_, ?_⟩
  · exact fun _ h => h
  · exact fun _ h => h
  · intro _ batch hbatch
    cases hbatch

/-- Native calls stay within policy. For a valid policy:
a batch built for any active request out of any deque of requests that passed preflight keeps
exact totals that fit in machine words, after every step of the scan, and stays in bounds; it
contains that request, so whatever passed preflight can be dispatched, alone if need be; and in
every state of every run whose arrivals passed preflight, every engine call that a pool job
makes, with whatever members found inactive, has the options of all its members, at least one
and at most `max_batch_items` rows, and padded work of at most `max_batch_tokens`. -/
theorem native_calls_within_policy (policy : BatchPolicy) (hpolicy : policy.validate = .ok policy)
    (modelId : String) :
    (∀ first pending, PassedPreflight policy first →
      (∀ request ∈ pending, PassedPreflight policy request) →
      (∀ count, (scan policy first.options count
        ⟨[first], first.inputs.length, first.cost.maxSequenceLength, pending⟩).Bounded
          policy first.options) ∧
      first ∈ (formBatch policy first pending).requests ∧
      BatchWithin policy first.options [first] ∧
      ∀ engine checks call,
        (executeBatch engine modelId (formBatch policy first pending).requests checks).call =
          some call →
        CallWithin policy (formBatch policy first pending).requests
          (executeBatch engine modelId (formBatch policy first pending).requests checks) call) ∧
    (∀ s, SchedulerReachable policy modelId s →
      (∀ request ∈ s.arrived, PassedPreflight policy request) →
      ∀ cell ∈ s.cells, ∀ owned, cell.job = .running (some owned) → ∀ engine checks call,
        (executeBatch engine modelId owned checks).call = some call →
        CallWithin policy owned (executeBatch engine modelId owned checks) call) := by
  obtain ⟨_, _, hitems, _⟩ := BatchPolicy.validate_ok hpolicy
  constructor
  · intro first pending hfirst hpending
    have hwithin : first.WithinLimits policy := hfirst.within_limits
    have hothers : ∀ request ∈ pending, request.WithinLimits policy :=
      fun request hrequest => (hpending request hrequest).within_limits
    refine ⟨?_, ?_, (hwithin.singleton hitems []).toBatchWithin, ?_⟩
    · intro count
      exact scan_bounded count (hwithin.singleton hitems pending) fun request hrequest =>
        (hothers request hrequest).size_pos
    · exact scan_keeps _ _ List.mem_cons_self
    · intro engine checks call hcall
      exact execute_batch_within (form_batch_bounded hitems hwithin hothers).toBatchWithin
        engine modelId checks hcall
  · intro s hreach harrived cell hcell owned hjob engine checks call hcall
    have hwell := (scheduler_reachable_accounted hreach).cells cell hcell
    unfold Cell.WellFormed at hwell
    rw [hjob] at hwell
    obtain ⟨howned, _⟩ := hwell
    cases howned
    obtain ⟨key, hbatch⟩ := (scheduler_reachable_orderly hitems hreach).batches
      (fun request hrequest => (harrived request hrequest).within_limits) cell.batch
      (List.mem_map_of_mem hcell)
    exact execute_batch_within hbatch engine modelId checks hcall

/-- An engine that prices every input at one token. -/
def unitEngine : PreflightEngine where
  modelContract _ := some (.ok (Request.probe 0).contract)
  preflight _ _ _ := some (.ok (Request.probe 0).cost)

/-- A plan for one input. -/
def unitPlan : PreflightPlan :=
  { sequence := 7
    inputs := ["a"]
    options := .default
    control := .leaf (.single 0) none
    model := ⟨"m", by decide⟩
    lease := ⟨0⟩
    queue := ⟨0⟩
    maxTokens := BatchPolicy.default.maxTokens
    maxBatchTokens := BatchPolicy.default.maxBatchTokens }

/-- Two requests that pass preflight under the default policy share one call of two rows. -/
theorem native_calls_within_policy_pair :
    BatchPolicy.default.validate = .ok BatchPolicy.default ∧
    PassedPreflight .default (.probe 7) ∧
    ∃ call, (executeBatch (fun _ => .panicked) "m"
      (formBatch .default (.probe 7) [.probe 7]).requests
        (fun _ => ⟨true, 0, fun _ => false⟩)).call = some call ∧
      call.batch.inputs = ["a", "a"] ∧ call.batch.inputs.length ≤ 128 := by
  have hpolicy : BatchPolicy.default.validate = .ok BatchPolicy.default := by decide
  have hpassed : PassedPreflight .default (.probe 7) :=
    ⟨unitEngine, unitPlan, ⟨0, fun _ => false⟩, ⟨0, fun _ => false⟩,
      ⟨7, ["a"], (Request.probe 0).cost, (Request.probe 0).contract, ⟨0⟩, ⟨0⟩⟩, 7,
      rfl, rfl, rfl, rfl, rfl⟩
  have hcalls := (native_calls_within_policy .default hpolicy "m").1 (.probe 7) [.probe 7] hpassed
    (by simpa using hpassed)
  have hwithin := hcalls.2.2.2 (fun _ => .panicked) (fun _ => ⟨true, 0, fun _ => false⟩)
  exact ⟨hpolicy, hpassed, _, rfl, rfl, (hwithin _ rfl).rows⟩

end EmbeddingServer
