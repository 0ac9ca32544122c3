import EmbeddingServer.Lib.Tally
import EmbeddingServer.Lib.Transition
import EmbeddingServer.Runtime.Registry

/-!
# The blocking pool

`BlockingPool`: a bounded channel of jobs and the workers that share its receiver behind a mutex.
A worker holds the mutex while it waits in `recv` and has released it before it runs the job; a
job that panics is caught. The channel hands out what is buffered before it reports that the
last sender is gone.

`Kept` is what every state of a run is like: the jobs are started in the order in which they were
accepted, each of them once, and no worker is lost while a handle to the pool is alive. The workers
come to rest when nothing more is submitted (`work_terminates`), and at rest nothing is left over
(`Kept.rest`).

Two assumptions are those of the code: the depth of a validated policy is positive, so that the
channel has a buffer, and jobs end.
-/

namespace EmbeddingServer.Blocking

open Transition Tally

variable {Job : Type}

/-- What a worker does in `run_blocking_worker`. -/
inductive Worker (Job : Type) where
  /-- `receiver.lock()` is next, or waits for another worker. -/
  | locking
  /-- In `recv`, with the lock. -/
  | receiving
  /-- The job runs, without the lock. -/
  | running (job : Job)
  /-- The loop was left. -/
  | exited
  deriving DecidableEq, Repr

/-- The worker has left its loop, and with it its share of the receiver. -/
def Worker.hasExited : Worker Job → Bool
  | .exited => true
  | .locking | .receiving | .running _ => false

/-- The channel, its handles and the workers, with what became of the jobs. -/
structure Pool (Job : Type) where
  /-- The bound of the channel. -/
  depth : Nat
  queue : List Job
  /-- The clones of `sender`. -/
  handles : Nat
  size : Nat
  workers : Nat → Worker Job
  /-- The jobs that were accepted, in order. -/
  accepted : List Job
  /-- The jobs that were started, in order. -/
  started : List Job
  /-- The jobs that have ended, in order. -/
  ended : List Job

/-- A pool at its start. -/
def Pool.fresh (depth size handles : Nat) : Pool Job where
  depth := depth
  queue := []
  handles := handles
  size := size
  workers := fun _ => .locking
  accepted := []
  started := []
  ended := []

/-- `BlockingPool::new_with_spawner`. If a worker cannot be spawned the sender is dropped, but
the workers before it run. -/
def newWithSpawner (size depth : Nat) (spawn : Nat → Bool) :
    Except LifecycleError Unit × Pool Job :=
  match (List.range size).find? fun index => !spawn index with
  | none => (.ok (), .fresh depth size 1)
  | some failed => (.error .initializationFailed, .fresh depth failed 0)

/-- There is no receiver any more. -/
def Pool.disconnected (pool : Pool Job) : Bool :=
  (List.range pool.size).all fun worker => (pool.workers worker).hasExited

/-- `BlockingPool::try_execute`, which gives back a job that it does not accept. -/
def Pool.tryExecute (pool : Pool Job) (job : Job) : Except Job (Pool Job) :=
  if pool.disconnected then .error job
  else if pool.queue.length < pool.depth then
    .ok { pool with queue := pool.queue ++ [job], accepted := pool.accepted ++ [job] }
  else .error job

/-- A worker moves on. -/
def Pool.withWorker (pool : Pool Job) (worker : Nat) (next : Worker Job) : Pool Job :=
  { pool with workers := Function.update pool.workers worker next }

/-- A step of a worker. -/
inductive Work : Pool Job → Pool Job → Prop where
  | lock {pool : Pool Job} {worker : Nat} (hworker : worker < pool.size)
      (hpc : pool.workers worker = .locking)
      (hfree : ∀ other < pool.size, pool.workers other ≠ .receiving) :
      Work pool (pool.withWorker worker .receiving)
  /-- `recv` returns a job, and the lock is released. -/
  | receive {pool : Pool Job} {worker : Nat} {job : Job} {rest : List Job}
      (hworker : worker < pool.size) (hpc : pool.workers worker = .receiving)
      (hqueue : pool.queue = job :: rest) :
      Work pool
        { pool.withWorker worker (.running job) with
          queue := rest
          started := pool.started ++ [job] }
  /-- `recv` fails: the channel is empty and has no sender. -/
  | hangUp {pool : Pool Job} {worker : Nat} (hworker : worker < pool.size)
      (hpc : pool.workers worker = .receiving) (hqueue : pool.queue = [])
      (hhandles : pool.handles = 0) : Work pool (pool.withWorker worker .exited)
  /-- The job returns, or it panics and `catch_unwind` returns. -/
  | finish {pool : Pool Job} {worker : Nat} {job : Job} (hworker : worker < pool.size)
      (hpc : pool.workers worker = .running job) :
      Work pool { pool.withWorker worker .locking with ended := pool.ended ++ [job] }

/-- A step of the pool and of those who use it. -/
inductive Step : Pool Job → Pool Job → Prop where
  | work {pool pool' : Pool Job} (h : Work pool pool') : Step pool pool'
  | submit {pool pool' : Pool Job} (job : Job) (hhandle : 0 < pool.handles)
      (h : pool.tryExecute job = .ok pool') : Step pool pool'
  | clone {pool : Pool Job} (hhandle : 0 < pool.handles) :
      Step pool { pool with handles := pool.handles + 1 }
  | drop {pool : Pool Job} (hhandle : 0 < pool.handles) :
      Step pool { pool with handles := pool.handles - 1 }

/-! ## Steps of a worker -/

section

variable {pool pool' : Pool Job}

/-- Another worker is what it was. -/
theorem Pool.with_worker_of_ne {worker other : Nat} {next : Worker Job} (h : other ≠ worker) :
    (pool.withWorker worker next).workers other = pool.workers other :=
  Function.update_of_ne h _ _

@[simp]
theorem Pool.with_worker_self {worker : Nat} {next : Worker Job} :
    (pool.withWorker worker next).workers worker = next :=
  Function.update_self ..

/-- A worker that waits in `recv` after a step has waited before, unless it took the lock. -/
theorem Pool.receiving_with_worker {worker other : Nat} {next : Worker Job}
    (h : (pool.withWorker worker next).workers other = .receiving) (hnext : next ≠ .receiving) :
    pool.workers other = .receiving := by
  by_cases heq : other = worker
  · subst heq
    rw [Pool.with_worker_self] at h
    exact absurd h hnext
  · rwa [Pool.with_worker_of_ne heq] at h

/-- A worker that has left after a step had left before, unless it was the one that moved. -/
theorem Pool.exited_with_worker {worker other : Nat} {next : Worker Job}
    (h : (pool.withWorker worker next).workers other = .exited) (hnext : next ≠ .exited) :
    pool.workers other = .exited := by
  by_cases heq : other = worker
  · subst heq
    rw [Pool.with_worker_self] at h
    exact absurd h hnext
  · rwa [Pool.with_worker_of_ne heq] at h

/-- An accepted job is the last one of the queue. -/
theorem Pool.try_execute_ok {job : Job} (h : pool.tryExecute job = .ok pool') :
    pool.queue.length < pool.depth ∧
      pool' = { pool with queue := pool.queue ++ [job], accepted := pool.accepted ++ [job] } := by
  unfold Pool.tryExecute at h
  split at h
  · cases h
  · split at h
    · rename_i hroom
      cases h
      exact ⟨hroom, rfl⟩
    · cases h

/-- The workers leave the submissions alone. -/
theorem Work.frame (h : Work pool pool') :
    pool'.accepted = pool.accepted ∧ pool'.handles = pool.handles ∧ pool'.size = pool.size := by
  cases h with
  | lock | receive | hangUp | finish => exact ⟨rfl, rfl, rfl⟩

/-- How much a worker has left to do before it waits for the channel or has left. -/
def Worker.rank : Worker Job → Nat
  | .exited => 0
  | .receiving => 1
  | .locking => 2
  | .running _ => 3

/-- What the workers have left to do together. -/
def Pool.ranks (pool : Pool Job) : Nat :=
  tally pool.size fun worker => (pool.workers worker).rank

/-- A bound on the steps that the workers have left. -/
def Pool.labour (pool : Pool Job) : Nat :=
  4 * pool.queue.length + pool.ranks

theorem Pool.ranks_with_worker (pool : Pool Job) {worker : Nat} (hworker : worker < pool.size)
    (next : Worker Job) :
    (pool.withWorker worker next).ranks + (pool.workers worker).rank = pool.ranks + next.rank := by
  have hchange := @tally_change pool.size
    (fun other => (pool.workers other).rank)
    (fun other => ((pool.withWorker worker next).workers other).rank) worker hworker
    fun other hother => by rw [Pool.with_worker_of_ne hother]
  rwa [Pool.with_worker_self] at hchange

/-- Every step of a worker leaves less to do. -/
theorem Work.labour_lt (h : Work pool pool') : pool'.labour < pool.labour := by
  cases h with
  | @lock worker hworker hpc hfree =>
      have hranks := pool.ranks_with_worker hworker .receiving
      rw [hpc, Worker.rank, Worker.rank] at hranks
      show 4 * pool.queue.length + (pool.withWorker worker .receiving).ranks <
        4 * pool.queue.length + pool.ranks
      omega
  | @receive worker job rest hworker hpc hqueue =>
      have hranks := pool.ranks_with_worker hworker (.running job)
      rw [hpc, Worker.rank, Worker.rank] at hranks
      have hlength : pool.queue.length = rest.length + 1 := by rw [hqueue, List.length_cons]
      show 4 * rest.length + (pool.withWorker worker (.running job)).ranks <
        4 * pool.queue.length + pool.ranks
      omega
  | @hangUp worker hworker hpc hqueue hhandles =>
      have hranks := pool.ranks_with_worker hworker .exited
      rw [hpc, Worker.rank, Worker.rank] at hranks
      show 4 * pool.queue.length + (pool.withWorker worker .exited).ranks <
        4 * pool.queue.length + pool.ranks
      omega
  | @finish worker job hworker hpc =>
      have hranks := pool.ranks_with_worker hworker .locking
      rw [hpc, Worker.rank, Worker.rank] at hranks
      show 4 * pool.queue.length + (pool.withWorker worker .locking).ranks <
        4 * pool.queue.length + pool.ranks
      omega

/-- The workers do not go on for ever by themselves. -/
theorem work_terminates : WellFounded fun after before : Pool Job => Work before after :=
  Subrelation.wf (r := InvImage (· < ·) Pool.labour) Work.labour_lt (InvImage.wf _ Nat.lt_wfRel.wf)

/-- No worker can make a step. -/
def Pool.AtRest (pool : Pool Job) : Prop :=
  ∀ pool', ¬ Work pool pool'

/-- At rest no job runs. -/
theorem Pool.AtRest.idle (h : pool.AtRest) {worker : Nat} (hworker : worker < pool.size)
    (job : Job) : pool.workers worker ≠ .running job := by
  intro hpc
  exact h _ (.finish hworker hpc)

/-- At rest a worker that waits in `recv` waits for a sender. -/
theorem Pool.AtRest.waits (h : pool.AtRest) {worker : Nat} (hworker : worker < pool.size)
    (hpc : pool.workers worker = .receiving) : pool.queue = [] ∧ 0 < pool.handles := by
  cases hqueue : pool.queue with
  | nil =>
      refine ⟨rfl, ?_⟩
      by_contra hnone
      exact h _ (.hangUp hworker hpc hqueue (by omega))
  | cons job rest => exact absurd (.receive hworker hpc hqueue) (h _)

/-- At rest some worker waits in `recv`, or all have left. -/
theorem Pool.AtRest.cases (h : pool.AtRest) :
    (∃ worker < pool.size, pool.workers worker = .receiving) ∨
      ∀ worker < pool.size, pool.workers worker = .exited := by
  by_cases hfree : ∃ worker < pool.size, pool.workers worker = .receiving
  · exact .inl hfree
  · right
    intro worker hworker
    cases hpc : pool.workers worker with
    | exited => rfl
    | receiving => exact absurd ⟨worker, hworker, hpc⟩ hfree
    | running job => exact absurd hpc (h.idle hworker job)
    | locking =>
        refine absurd (Work.lock hworker hpc fun other hother hreceiving => ?_) (h _)
        exact hfree ⟨other, hother, hreceiving⟩

/-- Left to itself, a pool comes to rest. -/
theorem exists_rest (pool : Pool Job) : ∃ rest, Run Work pool rest ∧ rest.AtRest := by
  induction pool using work_terminates.induction with
  | h pool ih =>
      by_cases hrest : pool.AtRest
      · exact ⟨pool, .refl, hrest⟩
      · obtain ⟨next, hnext⟩ : ∃ next, Work pool next := by
          simpa [Pool.AtRest] using hrest
        obtain ⟨rest, hrun, hatRest⟩ := ih next hnext
        exact ⟨rest, .head hnext hrun, hatRest⟩

end

/-! ## What every state is like -/

section

variable [DecidableEq Job] {pool pool' : Pool Job}

/-- The number of workers that run the job. -/
def Pool.runs (pool : Pool Job) (job : Job) : Nat :=
  tally pool.size fun worker => if pool.workers worker = .running job then 1 else 0

/-- The pool has neither lost nor repeated a job, and no worker has left too early. -/
structure Kept (pool : Pool Job) : Prop where
  fifo : pool.accepted = pool.started ++ pool.queue
  bounded : pool.queue.length ≤ pool.depth
  /-- A started job runs on one worker or has ended. -/
  once : ∀ job, pool.started.count job = pool.ended.count job + pool.runs job
  exclusive : ∀ worker < pool.size, ∀ other < pool.size, pool.workers worker = .receiving →
    pool.workers other = .receiving → worker = other
  exited : ∀ worker < pool.size, pool.workers worker = .exited →
    pool.handles = 0 ∧ pool.queue = []
  /-- Who holds a handle holds one to a pool with workers. -/
  staffed : 0 < pool.handles → 0 < pool.size
  empty : pool.size = 0 → pool.queue = []

theorem kept_fresh {depth size handles : Nat} (h : 0 < handles → 0 < size) :
    Kept (Pool.fresh depth size handles : Pool Job) := by
  refine ⟨rfl, Nat.zero_le _, fun job => ?_, fun _ _ _ _ hpc => (by cases hpc),
    fun _ _ hpc => (by cases hpc), h, fun _ => rfl⟩
  show 0 = 0 + tally size (fun _ => if (Worker.locking : Worker Job) = .running job then 1 else 0)
  rw [@tally_congr size _ (fun _ => 0) fun _ _ => if_neg nofun]
  show 0 = 0 + ∑ _worker ∈ Finset.range size, 0
  simp

/-- The workers at work, after one of them has moved on. -/
theorem Pool.runs_with_worker (pool : Pool Job) {worker : Nat} (hworker : worker < pool.size)
    (next : Worker Job) (job : Job) :
    (pool.withWorker worker next).runs job + (if pool.workers worker = .running job then 1 else 0) =
      pool.runs job + if next = .running job then 1 else 0 := by
  have hchange := @tally_change pool.size
    (fun other => if pool.workers other = .running job then 1 else 0)
    (fun other => if Function.update pool.workers worker next other = .running job then 1 else 0)
    worker hworker fun other hother => by rw [Function.update_of_ne hother]
  rw [Function.update_self] at hchange
  exact hchange

/-- A job that begins or ends, counted like the workers that run it. -/
theorem count_job (job other : Job) :
    [job].count other = if Worker.running job = .running other then 1 else 0 := by
  by_cases heq : job = other
  · rw [heq, List.count_singleton_self, if_pos rfl]
  · rw [List.count_singleton, if_neg (by simpa using heq), if_neg (by simpa using heq)]

/-- A worker that does not take the lock leaves at most one with it. -/
theorem Kept.exclusive_with_worker (h : Kept pool) {worker : Nat} {next : Worker Job}
    (hnext : next ≠ .receiving) : ∀ first < pool.size, ∀ second < pool.size,
      (pool.withWorker worker next).workers first = .receiving →
        (pool.withWorker worker next).workers second = .receiving → first = second := by
  intro first hfirst second hsecond hfirstPc hsecondPc
  exact h.exclusive first hfirst second hsecond (Pool.receiving_with_worker hfirstPc hnext)
    (Pool.receiving_with_worker hsecondPc hnext)

theorem Kept.lock (h : Kept pool) {worker : Nat} (hworker : worker < pool.size)
    (hpc : pool.workers worker = .locking)
    (hfree : ∀ other < pool.size, pool.workers other ≠ .receiving) :
    Kept (pool.withWorker worker .receiving) := by
  refine ⟨h.fifo, h.bounded, fun job => ?_, ?_, ?_, h.staffed, h.empty⟩
  · have hruns := pool.runs_with_worker hworker .receiving job
    rw [hpc, if_neg nofun, if_neg nofun] at hruns
    have honce := h.once job
    show pool.started.count job = pool.ended.count job +
      (pool.withWorker worker .receiving).runs job
    omega
  · have honly : ∀ other < pool.size,
        (pool.withWorker worker .receiving).workers other = .receiving → other = worker := by
      intro other hother hreceiving
      by_contra hne
      rw [Pool.with_worker_of_ne hne] at hreceiving
      exact hfree other hother hreceiving
    intro first hfirst second hsecond hfirstPc hsecondPc
    rw [honly first hfirst hfirstPc, honly second hsecond hsecondPc]
  · intro other hother hexited
    exact h.exited other hother (Pool.exited_with_worker hexited nofun)

theorem Kept.receive (h : Kept pool) {worker : Nat} {job : Job} {rest : List Job}
    (hworker : worker < pool.size) (hpc : pool.workers worker = .receiving)
    (hqueue : pool.queue = job :: rest) :
    Kept
      { pool.withWorker worker (.running job) with
        queue := rest
        started := pool.started ++ [job] } := by
  refine ⟨?_, ?_, fun other => ?_, ?_, ?_, h.staffed, ?_⟩
  · show pool.accepted = pool.started ++ [job] ++ rest
    rw [h.fifo, hqueue, List.append_assoc, List.singleton_append]
  · have hbounded := h.bounded
    rw [hqueue, List.length_cons] at hbounded
    show rest.length ≤ pool.depth
    omega
  · have hruns := pool.runs_with_worker hworker (.running job) other
    rw [hpc, if_neg nofun] at hruns
    have honce := h.once other
    show (pool.started ++ [job]).count other =
      pool.ended.count other + (pool.withWorker worker (.running job)).runs other
    rw [List.count_append, count_job]
    omega
  · exact h.exclusive_with_worker nofun
  · intro other hother hexited
    have hempty := (h.exited other hother (Pool.exited_with_worker hexited nofun)).2
    rw [hqueue] at hempty
    cases hempty
  · intro hsize
    have hnone : pool.size = 0 := hsize
    omega

theorem Kept.hang_up (h : Kept pool) {worker : Nat} (hworker : worker < pool.size)
    (hpc : pool.workers worker = .receiving) (hqueue : pool.queue = [])
    (hhandles : pool.handles = 0) : Kept (pool.withWorker worker .exited) := by
  refine ⟨h.fifo, h.bounded, fun job => ?_, ?_, fun _ _ _ => ⟨hhandles, hqueue⟩, h.staffed, h.empty⟩
  · have hruns := pool.runs_with_worker hworker .exited job
    rw [hpc, if_neg nofun, if_neg nofun] at hruns
    have honce := h.once job
    show pool.started.count job = pool.ended.count job + (pool.withWorker worker .exited).runs job
    omega
  · exact h.exclusive_with_worker nofun

theorem Kept.finish (h : Kept pool) {worker : Nat} {job : Job} (hworker : worker < pool.size)
    (hpc : pool.workers worker = .running job) :
    Kept { pool.withWorker worker .locking with ended := pool.ended ++ [job] } := by
  refine ⟨h.fifo, h.bounded, fun other => ?_, ?_, ?_, h.staffed, h.empty⟩
  · have hruns := pool.runs_with_worker hworker .locking other
    have hlocking : (Worker.locking : Worker Job) ≠ .running other := nofun
    rw [hpc, if_neg hlocking] at hruns
    have honce := h.once other
    show pool.started.count other =
      (pool.ended ++ [job]).count other + (pool.withWorker worker .locking).runs other
    rw [List.count_append, count_job]
    omega
  · exact h.exclusive_with_worker nofun
  · intro other hother hexited
    exact h.exited other hother (Pool.exited_with_worker hexited nofun)

theorem Kept.work (h : Kept pool) (hwork : Work pool pool') : Kept pool' := by
  cases hwork with
  | lock hworker hpc hfree => exact h.lock hworker hpc hfree
  | receive hworker hpc hqueue => exact h.receive hworker hpc hqueue
  | hangUp hworker hpc hqueue hhandles => exact h.hang_up hworker hpc hqueue hhandles
  | finish hworker hpc => exact h.finish hworker hpc

theorem Kept.submit (h : Kept pool) {job : Job} (hhandle : 0 < pool.handles)
    (hsubmit : pool.tryExecute job = .ok pool') : Kept pool' := by
  obtain ⟨hroom, rfl⟩ := Pool.try_execute_ok hsubmit
  refine ⟨?_, ?_, h.once, h.exclusive, ?_, h.staffed, ?_⟩
  · show pool.accepted ++ [job] = pool.started ++ (pool.queue ++ [job])
    rw [h.fifo, List.append_assoc]
  · show (pool.queue ++ [job]).length ≤ pool.depth
    rw [List.length_append, List.length_singleton]
    omega
  · intro worker hworker hexited
    have hnone := (h.exited worker hworker hexited).1
    omega
  · intro hsize
    have hstaffed := h.staffed hhandle
    have hnone : pool.size = 0 := hsize
    omega

/-- Every step keeps the pool. -/
theorem kept_preserved : Preserves (Step : Pool Job → Pool Job → Prop) Kept := by
  intro pool pool' h hstep
  cases hstep with
  | work hwork => exact h.work hwork
  | submit job hhandle hsubmit => exact h.submit hhandle hsubmit
  | clone hhandle =>
      refine ⟨h.fifo, h.bounded, h.once, h.exclusive, ?_, fun _ => h.staffed hhandle, h.empty⟩
      intro worker hworker hexited
      have hnone := (h.exited worker hworker hexited).1
      omega
  | drop hhandle =>
      refine ⟨h.fifo, h.bounded, h.once, h.exclusive, ?_, fun _ => h.staffed hhandle, h.empty⟩
      intro worker hworker hexited
      have hnone := (h.exited worker hworker hexited).1
      omega

/-- While there is a handle, a job is refused only for want of room. -/
theorem Kept.refused_iff (h : Kept pool) (hhandle : 0 < pool.handles) (job : Job) :
    pool.tryExecute job = .error job ↔ pool.queue.length = pool.depth := by
  have hconnected : pool.disconnected = false := by
    by_contra hall
    rw [Bool.not_eq_false, Pool.disconnected, List.all_eq_true] at hall
    have hstaffed := h.staffed hhandle
    have hfirst := hall 0 (List.mem_range.mpr hstaffed)
    cases hpc : pool.workers 0 with
    | exited =>
        have hnone := (h.exited 0 hstaffed hpc).1
        omega
    | locking | receiving | running =>
        rw [hpc] at hfirst
        cases hfirst
  have hbounded := h.bounded
  unfold Pool.tryExecute
  rw [hconnected, if_neg Bool.false_ne_true]
  split
  · rename_i hroom
    exact ⟨fun hok => (by cases hok), fun hfull => by omega⟩
  · rename_i hfull
    exact ⟨fun _ => by omega, fun _ => rfl⟩

/-! ## The pool at rest -/

/-- At rest every accepted job has ended; one worker waits for the next one, or the last handle is
gone and all workers have left. -/
theorem Kept.rest (h : Kept pool) (hrest : pool.AtRest) :
    pool.queue = [] ∧ (∀ job, pool.ended.count job = pool.accepted.count job) ∧
      (0 < pool.handles → ∃ worker < pool.size, pool.workers worker = .receiving) ∧
      (pool.handles = 0 → ∀ worker < pool.size, pool.workers worker = .exited) := by
  have hqueue : pool.queue = [] := by
    rcases hrest.cases with ⟨worker, hworker, hpc⟩ | hall
    · exact (hrest.waits hworker hpc).1
    · by_cases hsize : pool.size = 0
      · exact h.empty hsize
      · exact (h.exited 0 (by omega) (hall 0 (by omega))).2
  refine ⟨hqueue, fun job => ?_, fun hhandles => ?_, fun hhandles => ?_⟩
  · have honce := h.once job
    have hidle : pool.runs job = 0 := by
      unfold Pool.runs
      rw [@tally_congr _ _ (fun _ => 0) fun worker hworker => if_neg (hrest.idle hworker job)]
      show ∑ _worker ∈ Finset.range pool.size, 0 = 0
      simp
    rw [h.fifo, hqueue, List.append_nil]
    omega
  · rcases hrest.cases with hwaiting | hall
    · exact hwaiting
    · have hstaffed := h.staffed hhandles
      have hnone := (h.exited 0 hstaffed (hall 0 hstaffed)).1
      omega
  · rcases hrest.cases with ⟨worker, hworker, hpc⟩ | hall
    · have hsome := (hrest.waits hworker hpc).2
      omega
    · exact hall

/-- A new pool is kept; one that could not be set up has no handle. -/
theorem kept_new {size : Nat} (hsize : 0 < size) (depth : Nat) (spawn : Nat → Bool) :
    Kept (newWithSpawner size depth spawn : Except LifecycleError Unit × Pool Job).2 := by
  unfold newWithSpawner
  split
  · exact kept_fresh fun _ => hsize
  · exact kept_fresh fun h => absurd h (Nat.lt_irrefl 0)

/-- The workers alone, over a run. -/
theorem work_run (h : Run Work pool pool') (hkept : Kept pool) :
    Kept pool' ∧ pool'.accepted = pool.accepted ∧ pool'.handles = pool.handles ∧
      pool'.size = pool.size := by
  induction h with
  | refl => exact ⟨hkept, rfl, rfl, rfl⟩
  | tail _ hwork ih =>
      obtain ⟨hbetween, haccepted, hhandles, hsize⟩ := ih
      obtain ⟨haccepted', hhandles', hsize'⟩ := hwork.frame
      exact ⟨hbetween.work hwork, haccepted'.trans haccepted, hhandles'.trans hhandles,
        hsize'.trans hsize⟩

/-- The pool over every run, whatever its workers do when: it starts the accepted jobs in order,
each of them once, and refuses a job only when the queue is full. Left to itself it comes to rest
however its workers go on, provided that jobs end (`Work.finish`), and every accepted job has ended
then; while there is a handle a worker waits for the next job, and after the last one is dropped, or
if a worker could not be spawned, all of them leave. A policy has a positive depth. -/
theorem blocking_pool_run {size : Nat} (hsize : 0 < size) (depth : Nat) (spawn : Nat → Bool)
    (hrun : Run Step (newWithSpawner size depth spawn : Except LifecycleError Unit × Pool Job).2
      pool) :
    Kept pool ∧
      (0 < pool.handles → ∀ job, pool.tryExecute job = .error job ↔
        pool.queue.length = pool.depth) ∧
      (¬ ∃ run : Nat → Pool Job, run 0 = pool ∧ ∀ step, Work (run step) (run (step + 1))) ∧
      (∃ rest, Run Work pool rest ∧ rest.AtRest) ∧
      ∀ rest, Run Work pool rest → rest.AtRest →
        (∀ job, rest.ended.count job = pool.accepted.count job) ∧
          (0 < pool.handles → ∃ worker < pool.size, rest.workers worker = .receiving) ∧
          (pool.handles = 0 → ∀ worker < pool.size, rest.workers worker = .exited) := by
  have hkept : Kept pool := kept_preserved.run hrun (kept_new hsize depth spawn)
  refine ⟨hkept, fun hhandle job => hkept.refused_iff hhandle job, ?_, exists_rest pool, ?_⟩
  · rintro ⟨run, _, hforever⟩
    -- A run without end would descend forever.
    exact (wellFounded_iff_isEmpty_descending_chain.mp work_terminates).false ⟨run, hforever⟩
  intro rest hwork hrest
  obtain ⟨hkeptRest, haccepted, hhandles, hworkers⟩ := work_run hwork hkept
  obtain ⟨_, hended, hwaiting, hexited⟩ := hkeptRest.rest hrest
  rw [hhandles, hworkers] at hwaiting hexited
  exact ⟨fun job => by rw [hended job, haccepted], hwaiting, hexited⟩

end

/-- A pool of two workers with room for one job: a second job is refused, and the first one has
ended when the pool is at rest. -/
theorem blocking_pool_run_full : ∃ pool : Pool Nat,
    Run Step (newWithSpawner 2 1 fun _ => true : Except LifecycleError Unit × Pool Nat).2 pool ∧
      pool.tryExecute 8 = .error 8 ∧
      ∃ rest, Run Work pool rest ∧ rest.AtRest ∧ rest.ended.count 7 = 1 := by
  have hrun : Run Step (newWithSpawner 2 1 fun _ => true : Except LifecycleError Unit × Pool Nat).2
      { Pool.fresh 1 2 1 with queue := [7], accepted := [7] } :=
    .single (.submit 7 (by decide) rfl)
  obtain ⟨_, hrefused, _, hrest, hended⟩ := blocking_pool_run (by decide) 1 _ hrun
  obtain ⟨rest, hwork, hatRest⟩ := hrest
  exact ⟨_, hrun, (hrefused (by decide) 8).mpr rfl, rest, hwork, hatRest,
    (hended rest hwork hatRest).1 7⟩

end EmbeddingServer.Blocking
