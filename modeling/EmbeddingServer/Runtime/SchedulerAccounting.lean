import Mathlib.Algebra.Order.Group.Multiset
import Mathlib.Data.Multiset.Count
import Mathlib.Tactic.Abel
import EmbeddingServer.Runtime.Demultiplex
import EmbeddingServer.Runtime.Scheduler

/-!
# No request is lost, duplicated or answered twice

Requests are told apart by their response senders. `tickets` and `answered` count the
senders of requests and of sent responses as multisets, so that an equation between
them says "exactly once" for every sender at once.

`Accounted` is the invariant of the scheduler: what was received is pending, answered as
inactive, in exactly one dispatched batch, or drained, and each shared cell holds its
whole batch until either its worker or the recovery path takes it. `scheduler_step_accounted`
preserves it, and `step_conserves` says that every step keeps the multiset of
requests in the channel, pending, dispatched and answered.
-/

namespace EmbeddingServer

/-- The response senders of a list of requests. -/
def tickets (requests : List Request) : Multiset Nat :=
  (requests.map Request.response : List Nat)

/-- The response senders used by a list of answers. -/
def answered (answers : List Answer) : Multiset Nat :=
  tickets (answers.map Answer.request)

@[simp] theorem tickets_nil : tickets [] = 0 := rfl

@[simp] theorem tickets_cons (request : Request) (rest : List Request) :
    tickets (request :: rest) = {request.response} + tickets rest := rfl

@[simp] theorem tickets_append (left right : List Request) :
    tickets (left ++ right) = tickets left + tickets right := by
  simp [tickets]

/-- Rearranging requests does not change their senders. -/
theorem tickets_perm {left right : List Request} (h : left.Perm right) :
    tickets left = tickets right :=
  Multiset.coe_eq_coe.mpr (h.map _)

@[simp] theorem tickets_release (requests : List Request) :
    tickets (requests.map Request.releaseQueue) = tickets requests := by
  simp [tickets, Request.releaseQueue, Function.comp_def]

@[simp] theorem answered_nil : answered [] = 0 := rfl

@[simp] theorem answered_cons (answer : Answer) (rest : List Answer) :
    answered (answer :: rest) = {answer.request.response} + answered rest := rfl

@[simp] theorem answered_append (left right : List Answer) :
    answered (left ++ right) = answered left + answered right := by
  simp [answered]

@[simp] theorem answered_fail_requests (checks : Nat → Observation) (code : ErrorCode)
    (tick : Nat) (requests : List Request) :
    answered (failRequests checks code tick requests) = tickets requests := by
  rw [answered, fail_requests_requests]

/-! ## One batch execution -/

/-- `execute_batch` answers every request it is given exactly once. -/
@[simp] theorem answered_execute_batch (engine : EngineEmbed) (modelId : String)
    (requests : List Request) (checks : Nat → Observation) :
    answered (executeBatch engine modelId requests checks).answers = tickets requests := by
  obtain ⟨_, _, hperm⟩ := activate_spec checks 0 requests
  have hactivate := tickets_perm hperm
  rw [tickets_append, tickets_release] at hactivate
  rcases hrun : activate checks 0 requests with ⟨inactive, active, tick⟩
  rw [hrun] at hactivate
  cases active with
  | nil => simpa [executeBatch, hrun, BatchRun.answers, answered] using hactivate
  | cons first rest =>
      have hall : ∀ published : List Answer, published.map Answer.request = first :: rest →
          answered (inactive ++ published) = tickets requests := by
        intro published hpublished
        rw [answered_append, answered, answered, hpublished]
        exact hactivate
      simp only [executeBatch, hrun, BatchRun.answers]
      split
      · exact hall _ (fail_requests_requests checks _ _ _)
      · split
        · exact hall _ (fail_requests_requests checks _ _ _)
        · exact hall _ (finish_batch_requests checks _ _ _)

/-! ## The scan that builds a batch -/

/-- A scan step moves at most one request, from the deque to the batch. -/
theorem scan_step_perm (policy : BatchPolicy) (key : EmbedOptions) (build : BatchBuild) :
    ((scanStep policy key build).requests ++ (scanStep policy key build).pending).Perm
      (build.requests ++ build.pending) := by
  unfold scanStep
  split
  · exact List.Perm.refl _
  · rename_i candidate rest hpending
    have hrotate : (build.requests ++ (rest ++ [candidate])).Perm
        (build.requests ++ build.pending) := by
      rw [hpending]
      exact (List.perm_append_singleton candidate rest).append_left _
    split
    · exact hrotate
    · simp only []
      split
      · rw [hpending]
        simp
      · exact hrotate

/-- The whole scan keeps every request. -/
theorem scan_perm (policy : BatchPolicy) (key : EmbedOptions) (count : Nat) (build : BatchBuild) :
    ((scan policy key count build).requests ++ (scan policy key count build).pending).Perm
      (build.requests ++ build.pending) := by
  induction count generalizing build with
  | zero => exact List.Perm.refl _
  | succ count ih => exact (ih _).trans (scan_step_perm policy key build)

/-- The batch and what is left of the deque are together what the round started with. -/
theorem tickets_form_batch (policy : BatchPolicy) (first : Request) (rest : List Request) :
    tickets (formBatch policy first rest).requests + tickets (formBatch policy first rest).pending =
      tickets (first :: rest) := by
  rw [← tickets_append]
  exact tickets_perm (scan_perm policy _ _ _)

@[simp] theorem tickets_sort (pending : List Request) :
    tickets (sortBySequence pending) = tickets pending :=
  tickets_perm (List.mergeSort_perm _ _)

/-! ## The invariant -/

/-- The pool or the recovery path is done with the batch. -/
def JobState.settled : JobState → Prop
  | .executed | .recovered => True
  | _ => False

/-- `dispatch_batch` has returned for the batch. -/
def JobState.handedOver : JobState → Prop
  | .offered | .rejected => False
  | _ => True

/-- A cell holds its whole batch, untouched, until one owner takes it; a settled cell has
answered exactly its batch, by one execution or by one recovery. -/
def Cell.WellFormed (cell : Cell) : Prop :=
  match cell.job with
  | .offered | .queued | .rejected =>
      cell.contents = some cell.batch ∧ cell.answers = [] ∧
        cell.executions = 0 ∧ cell.recoveries = 0
  | .running owned =>
      owned = some cell.batch ∧ cell.contents = none ∧ cell.answers = [] ∧
        cell.executions = 0 ∧ cell.recoveries = 0
  | .executed =>
      cell.contents = none ∧ answered cell.answers = tickets cell.batch ∧
        cell.executions = 1 ∧ cell.recoveries = 0
  | .recovered =>
      cell.contents = none ∧ answered cell.answers = tickets cell.batch ∧
        cell.executions = 0 ∧ cell.recoveries = 1

/-- The senders of every batch ever given to `dispatch_batch`. -/
def dispatched (cells : List Cell) : Multiset Nat :=
  (cells.map fun cell => tickets cell.batch).sum

/-- The senders used on behalf of dispatched batches. -/
def cellsAnswered (cells : List Cell) : Multiset Nat :=
  (cells.map fun cell => answered cell.answers).sum

/-- The senders of a batch that has not been answered. -/
def Cell.outstanding (cell : Cell) : Multiset Nat :=
  match cell.job with
  | .executed | .recovered => 0
  | _ => tickets cell.batch

/-- The senders of the dispatched batches that have not been answered. -/
def cellsOutstanding (cells : List Cell) : Multiset Nat :=
  (cells.map Cell.outstanding).sum

/-- Only the last cell can still be inside `dispatch_batch`, and only while the task is there. -/
def SchedulerState.Handover (s : SchedulerState) : Prop :=
  match s.pc with
  | .dispatching => ∃ earlier cell, s.cells = earlier ++ [cell] ∧ cell.job = .offered ∧
      ∀ other ∈ earlier, other.job.handedOver
  | .recovering => ∃ earlier cell, s.cells = earlier ++ [cell] ∧ cell.job = .rejected ∧
      ∀ other ∈ earlier, other.job.handedOver
  | _ => ∀ cell ∈ s.cells, cell.job.handedOver

/-- Every received request is in exactly one place. -/
structure Accounted (s : SchedulerState) : Prop where
  fifo : s.arrived = s.received ++ s.channel
  placed : tickets s.received =
    tickets s.pending + answered s.inactive + dispatched s.cells + answered s.drained
  cells : ∀ cell ∈ s.cells, cell.WellFormed
  handover : s.Handover
  drained : s.pc = .drainChannel ∨ s.pc = .finished → s.pending = []

/-- A scheduler starts with nothing received. -/
theorem accounted_initial : Accounted .initial := by
  refine ⟨rfl, rfl, ?_, ?_, ?_⟩
  · simp [SchedulerState.initial]
  · simp [SchedulerState.Handover, SchedulerState.initial]
  · simp [SchedulerState.initial]

/-- The environment only extends the channel and sets flags. -/
theorem env_step_accounted {s s' : SchedulerState} (h : Accounted s) (hstep : EnvStep s s') :
    Accounted s' := by
  cases hstep with
  | arrive request => exact ⟨by simp [h.fifo], h.placed, h.cells, h.handover, h.drained⟩
  | dropSenders | sendStop | dropStopSender | setAccepting =>
      exact ⟨h.fifo, h.placed, h.cells, h.handover, h.drained⟩

/-- Replacing a handed-over cell by a well-formed one with the same batch keeps the accounts. -/
theorem replace_cell_accounted {s : SchedulerState} {earlier later : List Cell} {cell next : Cell}
    (h : Accounted s) (hcells : s.cells = earlier ++ cell :: later)
    (hold : cell.job.handedOver) (hnew : next.job.handedOver)
    (hbatch : next.batch = cell.batch) (hnext : next.WellFormed) :
    Accounted { s with cells := earlier ++ next :: later } := by
  obtain ⟨hfifo, hplaced, hwell, hhandover, hdrained⟩ := h
  rw [hcells] at hplaced hwell
  refine ⟨hfifo, ?_, ?_, ?_, hdrained⟩
  · simpa [dispatched, hbatch] using hplaced
  · intro other hother
    simp only [List.mem_append, List.mem_cons] at hother hwell
    rcases hother with hother | rfl | hother
    · exact hwell other (Or.inl hother)
    · exact hnext
    · exact hwell other (Or.inr (Or.inr hother))
  · -- The cell inside `dispatch_batch` is a later one, so the replaced cell is not the last.
    have hlast : ∀ (job : JobState), ¬ job.handedOver → (∃ front last, s.cells = front ++ [last] ∧
        last.job = job ∧ ∀ other ∈ front, other.job.handedOver) →
        ∃ front last, earlier ++ next :: later = front ++ [last] ∧ last.job = job ∧
          ∀ other ∈ front, other.job.handedOver := by
      rintro job hjob ⟨front, last, heq, rfl, hfront⟩
      rw [hcells] at heq
      rcases List.eq_nil_or_concat later with rfl | ⟨middle, final, rfl⟩
      · obtain ⟨rfl, hcell⟩ := List.append_inj_left' heq rfl, List.append_inj_right' heq rfl
        obtain rfl : cell = last := by simpa using hcell
        exact absurd hold hjob
      · have heq' : (earlier ++ cell :: middle) ++ [final] = front ++ [last] := by
          simpa using heq
        obtain rfl : earlier ++ cell :: middle = front := List.append_inj_left' heq' rfl
        obtain rfl : final = last := by simpa using List.append_inj_right' heq' rfl
        refine ⟨earlier ++ next :: middle, final, by simp, rfl, ?_⟩
        intro other hother
        simp only [List.mem_append, List.mem_cons] at hother hfront
        rcases hother with hother | rfl | hother
        · exact hfront other (Or.inl hother)
        · exact hnew
        · exact hfront other (Or.inr (Or.inr hother))
    have hrest : (∀ other ∈ s.cells, other.job.handedOver) →
        ∀ other ∈ earlier ++ next :: later, other.job.handedOver := by
      intro hall other hother
      rw [hcells] at hall
      simp only [List.mem_append, List.mem_cons] at hother hall
      rcases hother with hother | rfl | hother
      · exact hall other (Or.inl hother)
      · exact hnew
      · exact hall other (Or.inr (Or.inr hother))
    unfold SchedulerState.Handover at hhandover ⊢
    cases hpc : s.pc <;> simp only [hpc] at hhandover ⊢
    case dispatching => exact hlast _ (by simp [JobState.handedOver]) hhandover
    case recovering => exact hlast _ (by simp [JobState.handedOver]) hhandover
    all_goals exact hrest hhandover

/-- A worker takes an accepted batch whole and answers it whole. -/
theorem worker_step_accounted {modelId : String} {s s' : SchedulerState} (h : Accounted s)
    (hstep : WorkerStep modelId s s') : Accounted s' := by
  cases hstep with
  | take earlier cell later hcells hjob =>
      have hwell := h.cells cell (by simp [hcells])
      simp only [Cell.WellFormed, hjob] at hwell
      refine replace_cell_accounted h hcells (by simp [hjob, JobState.handedOver])
        (by simp [JobState.handedOver]) rfl ?_
      simpa [Cell.WellFormed] using hwell
  | run earlier cell later owned engine checks hcells hjob =>
      have hwell := h.cells cell (by simp [hcells])
      simp only [Cell.WellFormed, hjob, Option.some.injEq] at hwell
      obtain ⟨rfl, hcontents, hanswers, hexecutions, hrecoveries⟩ := hwell
      refine replace_cell_accounted h hcells (by simp [hjob, JobState.handedOver])
        (by simp [JobState.handedOver]) rfl ?_
      simp [Cell.WellFormed, hcontents, hanswers, hexecutions, hrecoveries]
  | skip earlier cell later hcells hjob =>
      have hwell := h.cells cell (by simp [hcells])
      simp [Cell.WellFormed, hjob] at hwell

/-- A step that only moves the program point, to one outside `dispatch_batch` and the drain. -/
theorem move_accounted {s : SchedulerState} {pc : SchedulerPc} (h : Accounted s)
    (hcells : ∀ cell ∈ s.cells, cell.job.handedOver)
    (hdispatching : pc ≠ .dispatching) (hrecovering : pc ≠ .recovering)
    (hdrained : pc = .drainChannel ∨ pc = .finished → s.pending = []) :
    Accounted { s with pc := pc } := by
  refine ⟨h.fifo, h.placed, h.cells, ?_, hdrained⟩
  unfold SchedulerState.Handover
  cases pc <;> first | exact hcells | contradiction

/-- Outside `dispatch_batch` every batch has been handed over. -/
theorem Accounted.handed_over {s : SchedulerState} (h : Accounted s)
    (hdispatching : s.pc ≠ .dispatching) (hrecovering : s.pc ≠ .recovering) :
    ∀ cell ∈ s.cells, cell.job.handedOver := by
  have hhandover := h.handover
  unfold SchedulerState.Handover at hhandover
  cases hpc : s.pc <;> simp only [hpc] at hhandover <;> first | exact hhandover | contradiction

/-- Moving the next request from the channel to the deque keeps the accounts. -/
theorem receive_accounted {s : SchedulerState} {pc : SchedulerPc} {request : Request}
    {rest : List Request} (h : Accounted s) (hchannel : s.channel = request :: rest)
    (hcells : ∀ cell ∈ s.cells, cell.job.handedOver)
    (hpc : pc = .collect ∨ pc = .collected) :
    Accounted { s with
      pc := pc, channel := rest, pending := s.pending ++ [request],
      received := s.received ++ [request] } := by
  refine ⟨by simp [h.fifo, hchannel], ?_, h.cells, ?_, ?_⟩
  · simp only [tickets_append, h.placed]
    abel
  · rcases hpc with rfl | rfl <;> exact hcells
  · rcases hpc with rfl | rfl <;> simp

/-- The last cell of a dispatch leaves `dispatch_batch`, or stays in it, with its batch. -/
theorem last_cell_accounted {s : SchedulerState} {pc : SchedulerPc} {earlier : List Cell}
    {cell next : Cell} (h : Accounted s) (hcells : s.cells = earlier ++ [cell])
    (hbatch : next.batch = cell.batch) (hnext : next.WellFormed)
    (hhandover : ({ s with pc := pc, cells := earlier ++ [next] } : SchedulerState).Handover)
    (hpc : pc = .yielded ∨ pc = .recovering) :
    Accounted { s with pc := pc, cells := earlier ++ [next] } := by
  obtain ⟨hfifo, hplaced, hwell, -, -⟩ := h
  rw [hcells] at hplaced hwell
  refine ⟨hfifo, ?_, ?_, hhandover, ?_⟩
  · simpa [dispatched, hbatch] using hplaced
  · intro other hother
    simp only [List.mem_append, List.mem_singleton] at hother hwell
    rcases hother with hother | rfl
    · exact hwell other (Or.inl hother)
    · exact hnext
  · rcases hpc with rfl | rfl <;> simp

/-- Inside `dispatch_batch` the last cell is the one being dispatched. -/
theorem last_cell_of_handover {s : SchedulerState} {earlier : List Cell} {cell : Cell}
    {job : JobState} (hcells : s.cells = earlier ++ [cell])
    (h : ∃ front last, s.cells = front ++ [last] ∧ last.job = job ∧
      ∀ other ∈ front, other.job.handedOver) :
    cell.job = job ∧ ∀ other ∈ earlier, other.job.handedOver := by
  obtain ⟨front, last, heq, hjob, hfront⟩ := h
  rw [hcells] at heq
  obtain rfl : earlier = front := List.append_inj_left' heq rfl
  obtain rfl : cell = last := by simpa using List.append_inj_right' heq rfl
  exact ⟨hjob, hfront⟩

/-- Every step of the task keeps the accounts. -/
theorem task_step_accounted {policy : BatchPolicy} {s s' : SchedulerState} (h : Accounted s)
    (hstep : TaskStep policy s s') : Accounted s' := by
  cases hstep with
  | top_stop hpc | top_idle hpc | top_collect hpc | idle_stop hpc | idle_changed hpc
  | idle_closed hpc | collect_stop hpc | collect_timer hpc | collect_closed hpc
  | collected_stop hpc | round_done hpc | yielded hpc | round_end_break hpc
  | round_end_loop hpc =>
      exact move_accounted h (h.handed_over (by simp [hpc]) (by simp [hpc]))
        (by simp) (by simp) (by simp)
  | collect_changed hpc =>
      refine move_accounted h (h.handed_over (by simp [hpc]) (by simp [hpc])) ?_ ?_ ?_ <;>
        split <;> simp
  | idle_recv request rest hpc hchannel =>
      exact receive_accounted h hchannel (h.handed_over (by simp [hpc]) (by simp [hpc]))
        (Or.inl rfl)
  | collect_recv request rest hpc hchannel =>
      refine receive_accounted h hchannel (h.handed_over (by simp [hpc]) (by simp [hpc])) ?_
      split
      · exact Or.inr rfl
      · exact Or.inl rfl
  | collected_sort hpc =>
      refine ⟨h.fifo, ?_, h.cells, h.handed_over (by simp [hpc]) (by simp [hpc]), by simp⟩
      simpa using h.placed
  | round_inactive first rest moment error hpc hpending =>
      have hcells := h.handed_over (by simp [hpc]) (by simp [hpc])
      refine ⟨h.fifo, ?_, h.cells, ?_, ?_⟩
      · have hplaced := h.placed
        -- The ticket moves from the pending requests to the answers.
        rw [hpending, tickets_cons] at hplaced
        simp only [hplaced, answered_append, answered_cons, answered_nil, add_zero]
        abel
      · simpa only [SchedulerState.Handover, hpc] using hcells
      · simp [hpc]
  | round_dispatch first rest moment hpc hpending =>
      have hcells := h.handed_over (by simp [hpc]) (by simp [hpc])
      refine ⟨h.fifo, ?_, ?_, ?_, by simp⟩
      · have hplaced := h.placed
        -- The tickets of the batch move into a cell of their own.
        rw [hpending, ← tickets_form_batch policy] at hplaced
        simp only [hplaced, dispatched, List.map_append, List.map_cons, List.map_nil,
          List.sum_append, List.sum_cons, List.sum_nil, add_zero]
        abel
      · intro cell hcell
        simp only [List.mem_append, List.mem_singleton] at hcell
        rcases hcell with hcell | rfl
        · exact h.cells cell hcell
        · simp [Cell.WellFormed]
      · exact ⟨s.cells, _, rfl, rfl, hcells⟩
  | pool_accept earlier cell hpc hcells =>
      obtain ⟨hjob, hearlier⟩ := last_cell_of_handover hcells
        (by simpa only [SchedulerState.Handover, hpc] using h.handover)
      have hwell := h.cells cell (by simp [hcells])
      refine last_cell_accounted h hcells rfl ?_ ?_ (Or.inl rfl)
      · simpa only [Cell.WellFormed, hjob] using hwell
      · intro other hother
        simp only [List.mem_append, List.mem_singleton] at hother
        rcases hother with hother | rfl
        · exact hearlier other hother
        · simp [JobState.handedOver]
  | pool_full earlier cell hpc hcells =>
      obtain ⟨hjob, hearlier⟩ := last_cell_of_handover hcells
        (by simpa only [SchedulerState.Handover, hpc] using h.handover)
      have hwell := h.cells cell (by simp [hcells])
      refine last_cell_accounted h hcells rfl ?_ ?_ (Or.inr rfl)
      · simpa only [Cell.WellFormed, hjob] using hwell
      · exact ⟨earlier, _, rfl, rfl, hearlier⟩
  | recover earlier cell requests checks hpc hcells hcontents =>
      obtain ⟨hjob, hearlier⟩ := last_cell_of_handover hcells
        (by simpa only [SchedulerState.Handover, hpc] using h.handover)
      have hwell := h.cells cell (by simp [hcells])
      simp only [Cell.WellFormed, hjob, hcontents, Option.some.injEq] at hwell
      obtain ⟨rfl, hanswers, hexecutions, hrecoveries⟩ := hwell
      refine last_cell_accounted h hcells rfl ?_ ?_ (Or.inl rfl)
      · simp [Cell.WellFormed, hanswers, hexecutions, hrecoveries]
      · intro other hother
        simp only [List.mem_append, List.mem_singleton] at hother
        rcases hother with hother | rfl
        · exact hearlier other hother
        · simp [JobState.handedOver]
  | recover_none earlier cell hpc hcells hcontents =>
      -- The cell of a handover still holds its requests, so the slot is never found empty.
      obtain ⟨hjob, -⟩ := last_cell_of_handover hcells
        (by simpa only [SchedulerState.Handover, hpc] using h.handover)
      have hwell := h.cells cell (by simp [hcells])
      simp [Cell.WellFormed, hjob, hcontents] at hwell
  | drain_pending checks hpc =>
      refine ⟨h.fifo, ?_, h.cells, h.handed_over (by simp [hpc]) (by simp [hpc]), by simp⟩
      simp only [h.placed, answered_append, answered_fail_requests, tickets_nil]
      abel
  | drain_recv request rest checks hpc hchannel =>
      have hcells := h.handed_over (by simp [hpc]) (by simp [hpc])
      refine ⟨by simp [h.fifo, hchannel], ?_, h.cells, ?_, h.drained⟩
      · simp only [h.placed, tickets_append, answered_append, answered_fail_requests]
        abel
      · simpa only [SchedulerState.Handover, hpc] using hcells
  | drain_empty hpc =>
      exact move_accounted h (h.handed_over (by simp [hpc]) (by simp [hpc]))
        (by simp) (by simp) (fun _ => h.drained (Or.inl hpc))

/-- Every step of the scheduler and of what runs beside it keeps the accounts. -/
theorem scheduler_step_accounted (policy : BatchPolicy) (modelId : String) :
    Transition.Preserves (SchedulerStep policy modelId) Accounted := by
  intro s s' h hstep
  cases hstep with
  | env hstep => exact env_step_accounted h hstep
  | worker hstep => exact worker_step_accounted h hstep
  | task hstep => exact task_step_accounted h hstep

/-- The accounts hold in every reachable state. -/
theorem scheduler_reachable_accounted {policy : BatchPolicy} {modelId : String}
    {s : SchedulerState} (h : SchedulerReachable policy modelId s) : Accounted s :=
  (scheduler_step_accounted policy modelId).run h accounted_initial

/-! ## Conservation and exactly-once answers -/

/-- Every response sent so far. -/
def SchedulerState.answeredAll (s : SchedulerState) : Multiset Nat :=
  answered s.inactive + cellsAnswered s.cells + answered s.drained

/-- Requests in the channel, pending, dispatched and not answered, or answered. -/
def SchedulerState.inFlight (s : SchedulerState) : Multiset Nat :=
  tickets s.channel + tickets s.pending + cellsOutstanding s.cells + s.answeredAll

/-- A dispatched batch is wholly outstanding or wholly answered. -/
theorem Cell.WellFormed.split {cell : Cell} (h : cell.WellFormed) :
    cell.outstanding + answered cell.answers = tickets cell.batch := by
  unfold Cell.WellFormed at h
  unfold Cell.outstanding
  cases hjob : cell.job <;> simp only [hjob] at h ⊢ <;> simp [h]

/-- Over all cells, outstanding and answered requests are the dispatched ones. -/
theorem cells_split {cells : List Cell} (h : ∀ cell ∈ cells, cell.WellFormed) :
    cellsOutstanding cells + cellsAnswered cells = dispatched cells := by
  induction cells with
  | nil => rfl
  | cons cell rest ih =>
      have hcell := (h cell (by simp)).split
      have hrest := ih fun other hother => h other (by simp [hother])
      simp only [cellsOutstanding, cellsAnswered, dispatched, List.map_cons,
        List.sum_cons] at hrest ⊢
      rw [← hcell, ← hrest]
      abel

/-- In flight is exactly what has arrived. -/
theorem Accounted.in_flight {s : SchedulerState} (h : Accounted s) :
    s.inFlight = tickets s.arrived := by
  rw [h.fifo, tickets_append, h.placed, ← cells_split h.cells]
  simp only [SchedulerState.inFlight, SchedulerState.answeredAll]
  abel

/-- What has been answered has been received, and nothing is answered more often. -/
theorem Accounted.answered_le {s : SchedulerState} (h : Accounted s) :
    s.answeredAll ≤ tickets s.received := by
  have heq : tickets s.received =
      s.answeredAll + (tickets s.pending + cellsOutstanding s.cells) := by
    rw [h.placed, ← cells_split h.cells]
    simp only [SchedulerState.answeredAll]
    abel
  rw [heq]
  exact le_add_of_nonneg_right (Multiset.zero_le _)

/-- Once the task has finished and every job is settled, everything received is answered. -/
theorem Accounted.answered_all {s : SchedulerState} (h : Accounted s) (hpc : s.pc = .finished)
    (hsettled : ∀ cell ∈ s.cells, cell.job.settled) : s.answeredAll = tickets s.received := by
  have hout : ∀ cells : List Cell, (∀ cell ∈ cells, cell.job.settled) →
      cellsOutstanding cells = 0 := by
    intro cells hcells
    induction cells with
    | nil => rfl
    | cons cell rest ih =>
        have hrest := ih fun other hother => hcells other (by simp [hother])
        have hcell := hcells cell (by simp)
        simp only [cellsOutstanding, List.map_cons, List.sum_cons] at hrest ⊢
        rw [hrest, add_zero]
        unfold Cell.outstanding
        cases hjob : cell.job <;> simp_all [JobState.settled]
  rw [h.placed, h.drained (Or.inr hpc), ← cells_split h.cells, hout _ hsettled]
  simp [SchedulerState.answeredAll]

/-- A batch is executed or recovered at most once, never both; once settled it is one of the
two and all its members have been answered. -/
theorem Cell.WellFormed.once {cell : Cell} (h : cell.WellFormed) :
    cell.executions + cell.recoveries ≤ 1 ∧
    (cell.job.settled → cell.executions + cell.recoveries = 1 ∧
      answered cell.answers = tickets cell.batch) := by
  unfold Cell.WellFormed at h
  cases hjob : cell.job <;> simp only [hjob] at h <;> simp [JobState.settled, h]

/-- Only an arrival adds to what has arrived. -/
theorem scheduler_step_arrived {policy : BatchPolicy} {modelId : String} {s s' : SchedulerState}
    (hstep : SchedulerStep policy modelId s s') : ∃ fresh, s'.arrived = s.arrived ++ fresh := by
  cases hstep with
  | env hstep =>
      cases hstep with
      | arrive request => exact ⟨[request], rfl⟩
      | _ => exact ⟨[], by simp⟩
  | worker hstep => cases hstep <;> exact ⟨[], by simp⟩
  | task hstep => cases hstep <;> exact ⟨[], by simp⟩

/-- In every state of every run: each step conserves the requests in the channel, pending,
dispatched and answered, up to what newly arrives; what was received is pending or was placed
exactly once (answered as inactive, in one dispatched batch, or drained); each dispatched batch
is executed once or recovered once, never both; and no response sender is used twice. When the
task has finished and the pool has run every accepted job, the senders used are exactly those
received. Distinct senders are then each used exactly once. -/
theorem scheduler_exactly_once (policy : BatchPolicy) (modelId : String) (s : SchedulerState)
    (h : SchedulerReachable policy modelId s) :
    (∀ s', SchedulerStep policy modelId s s' → ∃ fresh, s'.arrived = s.arrived ++ fresh ∧
      s'.inFlight = s.inFlight + tickets fresh) ∧
    tickets s.received =
      tickets s.pending + answered s.inactive + dispatched s.cells + answered s.drained ∧
    (∀ cell ∈ s.cells, cell.executions + cell.recoveries ≤ 1 ∧
      (cell.job.settled → cell.executions + cell.recoveries = 1 ∧
        answered cell.answers = tickets cell.batch)) ∧
    s.answeredAll ≤ tickets s.received ∧
    (s.pc = .finished → (∀ cell ∈ s.cells, cell.job.settled) →
      s.answeredAll = tickets s.received) ∧
    ((s.arrived.map Request.response).Nodup → ∀ request ∈ s.received,
      (tickets s.pending + answered s.inactive + dispatched s.cells +
        answered s.drained).count request.response = 1 ∧
      s.answeredAll.count request.response ≤ 1 ∧
      (s.pc = .finished → (∀ cell ∈ s.cells, cell.job.settled) →
        s.answeredAll.count request.response = 1)) := by
  have haccounted := scheduler_reachable_accounted h
  refine ⟨?_, haccounted.placed, fun cell hcell => (haccounted.cells cell hcell).once,
    haccounted.answered_le, haccounted.answered_all, ?_⟩
  · intro s' hstep
    obtain ⟨fresh, hfresh⟩ := scheduler_step_arrived hstep
    refine ⟨fresh, hfresh, ?_⟩
    rw [(scheduler_step_accounted policy modelId haccounted hstep).in_flight,
      haccounted.in_flight, hfresh, tickets_append]
  · intro hnodup request hrequest
    have hcount : (tickets s.received).count request.response = 1 := by
      rw [haccounted.fifo, List.map_append] at hnodup
      rw [tickets, Multiset.coe_count]
      exact List.count_eq_one_of_mem hnodup.of_append_left (List.mem_map_of_mem hrequest)
    refine ⟨by rw [← haccounted.placed, hcount], ?_, ?_⟩
    · rw [← hcount]
      exact Multiset.count_le_of_le _ haccounted.answered_le
    · intro hpc hsettled
      rw [haccounted.answered_all hpc hsettled, hcount]

/-- A request of one one-token input, never cancelled and without a deadline. -/
def Request.probe (response : Nat) : Request :=
  { sequence := response
    inputs := ["a"]
    cost := ⟨1, 1, 1, by decide, by decide, by decide, by decide⟩
    contract := ⟨⟨"m", "r", "o", "a", "s"⟩, 1, by decide, by decide⟩
    options := .default
    control := .leaf (.single 0) none
    response := response
    lease := ⟨0⟩
    queue := some ⟨0⟩ }

/-- A request that is received, found pending when the stop signal comes, and failed by the
drain: its sender is used exactly once. -/
theorem scheduler_exactly_once_drained :
    ∃ s, SchedulerReachable .default "m" s ∧ s.pc = .finished ∧ s.received = [Request.probe 7] ∧
      s.answeredAll.count 7 = 1 := by
  let quiet : Nat → Observation := fun _ => ⟨true, 0, fun _ => false⟩
  let s₁ : SchedulerState :=
    { SchedulerState.initial with channel := [.probe 7], arrived := [.probe 7] }
  let s₂ : SchedulerState := { s₁ with pc := .idle }
  let s₃ : SchedulerState :=
    { s₂ with pc := .collect, channel := [], pending := [.probe 7], received := [.probe 7] }
  let s₄ : SchedulerState := { s₃ with stop := true }
  let s₅ : SchedulerState := { s₄ with pc := .draining }
  let s₆ : SchedulerState :=
    { s₅ with pc := .drainChannel, closed := true, pending := [],
              drained := failRequests quiet .modelUnavailable 0 [.probe 7] }
  let s₇ : SchedulerState := { s₆ with pc := .finished }
  have hreach : SchedulerReachable .default "m" s₇ :=
    .tail (.tail (.tail (.tail (.tail (.tail (.tail .refl
      (.env (.arrive .initial (.probe 7))))
      (.task (.top_idle s₁ rfl rfl rfl)))
      (.task (.idle_recv s₂ (.probe 7) [] rfl rfl)))
      (.env (.sendStop s₃)))
      (.task (.collect_stop s₄ rfl rfl)))
      (.task (.drain_pending s₅ quiet rfl)))
      (.task (.drain_empty s₆ rfl rfl))
  obtain ⟨_, _, _, _, _, honce⟩ := scheduler_exactly_once .default "m" s₇ hreach
  refine ⟨s₇, hreach, rfl, rfl, ?_⟩
  exact (honce (by simp [s₇, s₆, s₅, s₄, s₃, s₂, s₁]) (.probe 7) (by simp [s₇, s₆, s₅, s₄, s₃])).2.2
    rfl (by simp [s₇, s₆, s₅, s₄, s₃, s₂, s₁, SchedulerState.initial])

end EmbeddingServer
