import EmbeddingServer.Core.TokenLag

/-!
# Wake-ups are not lost

The third layer of invariants of the race: a task which has dealt with a signal in its last poll is
woken, is among the waiters of a signal that will be drained, or is about to be woken. With the
layers below, nobody waits for a token that is cancelled once the calls of `cancel` have returned.

A poll that returns pending and has met a signal whose flag was set before wakes its own task, and
nothing need have changed (`poll_spins`).
-/

namespace EmbeddingServer.TokenRace

open TokenGraph

variable {s s' : State} {first : Work} {next : List Work}

/-- The thread is about to wake the task. -/
def WakesTask (task : TaskId) : Work → Prop
  | .cloneDependents _ waiters | .wake waiters => task ∈ waiters
  | .cancelSignal _ | .drainWaiters _ | .notify _ | .sourceChanged _ | .reading _ _
  | .pushDependent _ _ | .checkDependent _ _ | .publish _ => False

/-- A task that is registered with a signal waits, will be taken off its list or will be woken. -/
def Watched (s : State) (task : TaskId) (signal : SignalId) : Prop :=
  s.graph.flags signal = false ∧ task ∈ s.waiters signal ∨
    (task ∈ s.waiters signal ∧ ∃ thread, .drainWaiters signal ∈ (s.threads thread).work) ∨
    ∃ thread, ∃ item ∈ (s.threads thread).work, WakesTask task item

/-- The poll has found the token live at first and registers its waker, or has done so. -/
def Phase.watches : Phase → Bool
  | .registering _ | .pushing _ _ | .pushed _ _ | .rechecking _ | .pending => true
  | .absent | .fresh | .checking _ | .ready => false

/-- The last poll has not got to the registration of its waker. -/
def Phase.begins : Phase → Bool
  | .absent | .fresh | .checking _ => true
  | .registering _ | .pushing _ _ | .pushed _ _ | .rechecking _ | .pending | .ready => false

/-- The signal whose flag `register_waiter` found not set. -/
def Phase.loaded : Phase → Option SignalId
  | .pushing signal _ | .pushed signal _ => some signal
  | .absent | .fresh | .checking _ | .registering _ | .rechecking _ | .pending | .ready => none

/-- What is known of a task. The facts about `selfWoken` say when a poll wakes its own task. -/
structure TaskWatched (s : State) (task : TaskId) : Prop where
  begun : ∀ signal, (s.tasks task).begun signal = true → s.graph.flags signal = true
  begins : (s.tasks task).phase.begins = true →
    (s.tasks task).registered = [] ∧ (s.tasks task).selfWoken = false
  watched : (s.tasks task).woken = false → ∀ signal ∈ (s.tasks task).registered,
    Watched s task signal
  pushed : ∀ signal rest, (s.tasks task).phase = .pushed signal rest →
    s.graph.flags signal = true ∨ task ∈ s.waiters signal
  covers : (s.tasks task).phase.watches = true → ∀ signal ∈ (s.tasks task).token.signals,
    signal ∈ (s.tasks task).registered ∨ signal ∈ (s.tasks task).phase.signals
  live : (s.tasks task).phase.watches = true →
    ∃ flags, cancelledAt flags (s.tasks task).token = false
  selfWoken : (s.tasks task).phase.watches = true → (s.tasks task).selfWoken = true →
    ∃ signal ∈ (s.tasks task).token.signals, s.graph.flags signal = true
  ended : (s.tasks task).phase = .pending → (s.tasks task).selfWoken = true →
    ∃ signal ∈ (s.tasks task).token.signals, (s.tasks task).ended signal = true
  wakes : ∀ signal ∈ (s.tasks task).registered, (s.tasks task).begun signal = true →
    (s.tasks task).selfWoken = true
  unset : ∀ signal, (s.tasks task).phase.loaded = some signal →
    (s.tasks task).begun signal = false

/-- The third layer. -/
structure Watching (s : State) : Prop where
  drains : ∀ thread signal, .drainWaiters signal ∈ (s.threads thread).work →
    s.graph.flags signal = true
  tasks : ∀ task, TaskWatched s task

/-- A task that is left alone stays watched. -/
theorem TaskWatched.keep {task : TaskId} (h : TaskWatched s task) (hgrows : Grows s s')
    (htask : s'.tasks task = s.tasks task)
    (hwatched : ∀ signal, Watched s task signal → Watched s' task signal)
    (hpushed : ∀ signal, task ∈ s.waiters signal →
      s'.graph.flags signal = true ∨ task ∈ s'.waiters signal) : TaskWatched s' task := by
  constructor
  · rw [htask]
    exact fun signal hbegun => hgrows.flags signal (h.begun signal hbegun)
  · rw [htask]
    exact h.begins
  · rw [htask]
    exact fun hwoken signal hmem => hwatched signal (h.watched hwoken signal hmem)
  · rw [htask]
    intro signal rest hphase
    cases h.pushed signal rest hphase with
    | inl hflag => exact .inl (hgrows.flags signal hflag)
    | inr hwaits => exact hpushed signal hwaits
  · rw [htask]
    exact h.covers
  · rw [htask]
    exact h.live
  · rw [htask]
    intro hwatches hself
    obtain ⟨signal, hmem, hflag⟩ := h.selfWoken hwatches hself
    exact ⟨signal, hmem, hgrows.flags signal hflag⟩
  · rw [htask]
    exact h.ended
  · rw [htask]
    exact h.wakes
  · rw [htask]
    exact h.unset

/-- Steps that leave flags, waiters and the work of the threads. -/
theorem Watched.keep {task : TaskId} {signal : SignalId} (h : Watched s task signal)
    (hflags : s'.graph.flags = s.graph.flags)
    (hwaiters : ∀ signal, task ∈ s.waiters signal → task ∈ s'.waiters signal)
    (hwork : ∀ thread, ∀ item ∈ (s.threads thread).work, item ∈ (s'.threads thread).work) :
    Watched s' task signal := by
  rcases h with ⟨hflag, hwaits⟩ | ⟨hwaits, thread, hdrain⟩ | ⟨thread, item, hitem, hwakes⟩
  · exact .inl ⟨(congrFun hflags signal).trans hflag, hwaiters signal hwaits⟩
  · exact .inr (.inl ⟨hwaiters signal hwaits, thread, hwork thread _ hdrain⟩)
  · exact .inr (.inr ⟨thread, item, hwork thread item hitem, hwakes⟩)

/-- The same for the whole layer. -/
theorem Watching.keep (h : Watching s) (hgrows : Grows s s')
    (hflags : s'.graph.flags = s.graph.flags) (hwaiters : s'.waiters = s.waiters)
    (htasks : s'.tasks = s.tasks)
    (hwork : ∀ thread, ∀ item ∈ (s.threads thread).work, item ∈ (s'.threads thread).work)
    (hdrains : ∀ thread signal, .drainWaiters signal ∈ (s'.threads thread).work →
      .drainWaiters signal ∈ (s.threads thread).work) : Watching s' where
  drains thread signal hdrain :=
    (congrFun hflags signal).trans (h.drains thread signal (hdrains thread signal hdrain))
  tasks task := by
    refine (h.tasks task).keep hgrows (congrFun htasks task) ?_ ?_
    · intro signal hwatched
      exact hwatched.keep hflags (fun other hmem => (congrFun hwaiters other) ▸ hmem) hwork
    · intro signal hwaits
      exact .inr ((congrFun hwaiters signal) ▸ hwaits)

/-- A step of a thread keeps a registered task watched, unless it wakes the task. -/
theorem Watched.work {task : TaskId} {signal : SignalId} (h : Watched s task signal)
    {thread : ThreadId} {call : Call} {rest : List Work}
    (hthread : s.threads thread = ⟨call, first :: rest⟩) (hstep : WorkStep s first s' next)
    (hnot : ∀ others, first ≠ .wake (task :: others)) :
    Watched (s'.withThread thread ⟨call, next ++ rest⟩) task signal := by
  have hthreads := hstep.threads
  have hkeep : ∀ {other : ThreadId} {item : Work}, item ∈ (s.threads other).work →
      other ≠ thread ∨ item ≠ first →
      item ∈ ((s'.withThread thread ⟨call, next ++ rest⟩).threads other).work :=
    fun hitem hne => mem_after_work hthread hthreads hitem hne
  rcases h with ⟨hflag, hwaits⟩ | ⟨hwaits, other, hdrain⟩ | ⟨other, item, hitem, hwakes⟩
  · -- the flag is not set: the step may set it, or take the task off the list
    cases hstep with
    | @swap swapped _ =>
        by_cases heq : signal = swapped
        · subst heq
          exact .inr (.inl ⟨hwaits, thread, mem_new_work List.mem_cons_self⟩)
        · exact .inl ⟨(Function.update_of_ne heq ..).trans hflag, hwaits⟩
    | @drain drained =>
        by_cases heq : signal = drained
        · subst heq
          exact .inr (.inr ⟨thread, _, mem_new_work List.mem_cons_self, hwaits⟩)
        · have hafter : (s.withWaiters drained []).waiters signal = s.waiters signal :=
            Function.update_of_ne heq ..
          exact .inl ⟨hflag, hafter.symm ▸ hwaits⟩
    | cancelledBefore _ | clone | wake | allWoken | notify | allNotified | read | due _ _ _
    | idle _ | pushDependent | dependentDue _ | dependentIdle _ | publish =>
        exact .inl ⟨hflag, hwaits⟩
  · -- the list will be drained: the step may be the drain
    cases hstep with
    | @drain drained =>
        by_cases heq : signal = drained
        · subst heq
          exact .inr (.inr ⟨thread, _, mem_new_work List.mem_cons_self, hwaits⟩)
        · have hafter : (s.withWaiters drained []).waiters signal = s.waiters signal :=
            Function.update_of_ne heq ..
          refine .inr (.inl ⟨hafter.symm ▸ hwaits, other, hkeep hdrain (.inr ?_)⟩)
          exact fun hfirst => heq (Work.drainWaiters.inj hfirst)
    | cancelledBefore _ | swap _ | clone | wake | allWoken | notify | allNotified | read
    | due _ _ _ | idle _ | pushDependent | dependentDue _ | dependentIdle _ | publish =>
        exact .inr (.inl ⟨hwaits, other, hkeep hdrain (.inr fun hfirst => by cases hfirst)⟩)
  · -- the task will be woken: the step may pass it on
    right
    right
    by_cases hfirst : other = thread ∧ item = first
    · obtain ⟨rfl, rfl⟩ := hfirst
      cases hstep with
      | clone => exact ⟨other, _, mem_new_work List.mem_cons_self, hwakes⟩
      | @wake woken others =>
          cases List.mem_cons.mp hwakes with
          | inl heq => exact absurd (heq ▸ rfl) (hnot others)
          | inr hin => exact ⟨other, _, mem_new_work List.mem_cons_self, hin⟩
      | allWoken => cases hwakes
      | cancelledBefore _ | swap _ | drain | notify | allNotified | read | due _ _ _ | idle _
      | pushDependent | dependentDue _ | dependentIdle _ | publish => exact hwakes.elim
    · refine ⟨other, item, hkeep hitem ?_, hwakes⟩
      by_cases heq : other = thread
      · exact .inr fun heqItem => hfirst ⟨heq, heqItem⟩
      · exact .inl heq

/-- A task that was just woken is watched by nobody, and need not be. -/
theorem TaskWatched.wake {task : TaskId} (h : TaskWatched s task) (hgraph : s'.graph = s.graph)
    (hwaiters : s'.waiters = s.waiters)
    (htask : s'.tasks task = { s.tasks task with woken := true }) : TaskWatched s' task := by
  constructor
  · rw [htask, hgraph]
    exact h.begun
  · rw [htask]
    exact h.begins
  · rw [htask]
    intro hwoken
    cases hwoken
  · rw [htask, hgraph, hwaiters]
    exact h.pushed
  · rw [htask]
    exact h.covers
  · rw [htask]
    exact h.live
  · rw [htask, hgraph]
    exact h.selfWoken
  · rw [htask]
    exact h.ended
  · rw [htask]
    exact h.wakes
  · rw [htask]
    exact h.unset

/-- A step of a thread keeps the third layer. -/
theorem Watching.work (h : Watching s) {thread : ThreadId} {call : Call} {rest : List Work}
    (hthread : s.threads thread = ⟨call, first :: rest⟩) (hstep : WorkStep s first s' next) :
    Watching (s'.withThread thread ⟨call, next ++ rest⟩) := by
  have hgrows := hstep.grows
  constructor
  · intro other signal hdrain
    -- the drain is one of before, or the step has just set the flag
    by_cases heq : other = thread
    · subst heq
      rw [State.with_thread_self] at hdrain
      cases List.mem_append.mp hdrain with
      | inr hin =>
          refine hgrows.flags signal (h.drains other signal ?_)
          rw [hthread]
          exact List.mem_cons_of_mem _ hin
      | inl hnew =>
          cases hstep with
          | swap _ =>
              obtain rfl := Work.drainWaiters.inj (List.mem_singleton.mp hnew)
              exact Function.update_self ..
          | cancelledBefore _ | allWoken | allNotified | idle _ | dependentIdle _ | publish =>
              cases hnew
          | drain | wake | read | due _ _ _ | pushDependent | dependentDue _ =>
              cases List.mem_singleton.mp hnew
          | clone | notify =>
              cases List.mem_cons.mp hnew with
              | inl heq => cases heq
              | inr hlast => cases List.mem_singleton.mp hlast
    · rw [State.with_thread_ne _ _ heq, hstep.threads] at hdrain
      exact hgrows.flags signal (h.drains other signal hdrain)
  · intro task
    by_cases hwake : ∃ others, first = .wake (task :: others)
    · obtain ⟨others, rfl⟩ := hwake
      cases hstep
      exact (h.tasks task).wake rfl rfl (State.with_task_self ..)
    · have hnot : ∀ others, first ≠ .wake (task :: others) := fun others heq => hwake ⟨others, heq⟩
      refine (h.tasks task).keep (hgrows.trans (.of_graph rfl)) ?_
        (fun signal hwatched => hwatched.work hthread hstep hnot) ?_
      · cases hstep with
        | @wake woken others =>
            refine State.with_task_ne _ _ ?_
            rintro rfl
            exact hnot others rfl
        | cancelledBefore _ | swap _ | drain | clone | allWoken | notify | allNotified | read
        | due _ _ _ | idle _ | pushDependent | dependentDue _ | dependentIdle _ | publish => rfl
      · intro signal hwaits
        cases hstep with
        | @drain drained =>
            by_cases heq : signal = drained
            · subst heq
              left
              refine h.drains thread signal ?_
              rw [hthread]
              exact List.mem_cons_self
            · have hafter : (s.withWaiters drained []).waiters signal = s.waiters signal :=
                Function.update_of_ne heq ..
              exact .inr (hafter.symm ▸ hwaits)
        | cancelledBefore _ | swap _ | clone | wake | allWoken | notify | allNotified | read
        | due _ _ _ | idle _ | pushDependent | dependentDue _ | dependentIdle _ | publish =>
            exact .inr hwaits

/-- Waiters are only added when a task takes a step. -/
theorem TaskStep.waiters {task : TaskId} (h : TaskStep s task s') {other : TaskId}
    {signal : SignalId} (hmem : other ∈ s.waiters signal) : other ∈ s'.waiters signal := by
  cases h with
  | push _ => exact (s.mem_push_waiter).mpr (.inl hmem)
  | poll _ | cancelled _ _ | live _ _ | wakeBefore _ _ | unset _ _ | wakeAfter _ _
  | registered _ _ | recheck _ | cancelledMeanwhile _ _ | pending _ _ => exact hmem

/-- A registered task stays watched when a task takes a step. -/
theorem Watched.task {task other : TaskId} {signal : SignalId} (h : Watched s task signal)
    (hstep : TaskStep s other s') : Watched s' task signal := by
  refine h.keep (by rw [hstep.graph]) (fun _ hmem => hstep.waiters hmem) ?_
  intro thread item hitem
  rw [hstep.threads]
  exact hitem

/-- `register_waiter` is done with a signal. -/
theorem TaskWatched.covers_next {task : TaskId} (h : TaskWatched s task) {signal : SignalId}
    {rest : List SignalId} (hwatches : (s.tasks task).phase.watches = true)
    (hsignals : (s.tasks task).phase.signals = signal :: rest) :
    ∀ other ∈ (s.tasks task).token.signals,
      other ∈ signal :: (s.tasks task).registered ∨ other ∈ rest := by
  intro other hother
  cases h.covers hwatches other hother with
  | inl hdone => exact .inl (List.mem_cons_of_mem _ hdone)
  | inr hleft =>
      rw [hsignals] at hleft
      cases List.mem_cons.mp hleft with
      | inl heq => exact .inl (heq ▸ List.mem_cons_self)
      | inr hrest => exact .inr hrest

/-- A step of a task keeps what is known of it. -/
theorem TaskWatched.step {task : TaskId} (h : TaskWatched s task) (hshape : Shape s)
    (hstep : TaskStep s task s') : TaskWatched s' task := by
  have hkeep : ∀ signal, Watched s task signal → Watched s' task signal :=
    fun signal hwatched => hwatched.task hstep
  -- what a poll has yet to deal with belongs to the token
  have hsignals : ∀ signal ∈ (s.tasks task).phase.signals,
      signal ∈ (s.tasks task).token.signals := by
    intro signal hmem
    cases hshape.tasks task with
    | inr hwaits => exact hwaits.2 signal hmem
    | inl habsent =>
        rw [habsent] at hmem
        cases hmem
  have hregistered : (s.tasks task).woken = false → ∀ signal ∈ (s.tasks task).registered,
      Watched s' task signal :=
    fun hwoken signal hmem => hkeep signal (h.watched hwoken signal hmem)
  cases hstep with
  | poll _ =>
      constructor <;> rw [State.with_task_self]
      · exact fun _ hbegun => hbegun
      · exact fun _ => ⟨rfl, rfl⟩
      · exact fun _ _ hmem => absurd hmem List.not_mem_nil
      · nofun
      · nofun
      · nofun
      · nofun
      · nofun
      · exact fun _ hmem => absurd hmem List.not_mem_nil
      · nofun
  | cancelled _ _ | cancelledMeanwhile _ _ =>
      constructor <;> rw [State.with_task_self]
      · exact h.begun
      · nofun
      · exact hregistered
      · nofun
      · nofun
      · nofun
      · nofun
      · nofun
      · exact h.wakes
      · nofun
  | @live begun hphase hlive =>
      obtain ⟨hnone, hself⟩ := h.begins (by rw [hphase]; rfl)
      constructor <;> rw [State.with_task_self]
      · exact h.begun
      · nofun
      · exact hregistered
      · nofun
      · exact fun _ signal hmem => .inr hmem
      · exact fun _ => ⟨begun, hlive⟩
      · exact fun _ htrue => Bool.noConfusion (hself.symm.trans htrue)
      · nofun
      · exact h.wakes
      · nofun
  | @wakeBefore signal rest hphase hflag | @wakeAfter signal rest hphase hflag =>
      have hwatches : (s.tasks task).phase.watches = true := by rw [hphase]; rfl
      have hleft : (s.tasks task).phase.signals = signal :: rest := by rw [hphase]; rfl
      constructor <;> rw [State.with_task_self]
      · exact h.begun
      · nofun
      · nofun
      · nofun
      · exact fun _ => h.covers_next hwatches hleft
      · exact fun _ => h.live hwatches
      · exact fun _ _ => ⟨signal, hsignals signal (hleft ▸ List.mem_cons_self), hflag⟩
      · nofun
      · exact fun _ _ _ => rfl
      · nofun
  | @unset signal rest hphase hflag =>
      have hwatches : (s.tasks task).phase.watches = true := by rw [hphase]; rfl
      constructor <;> rw [State.with_task_self]
      · exact h.begun
      · nofun
      · exact hregistered
      · nofun
      · have hcovers := h.covers hwatches
        rw [hphase] at hcovers
        exact fun _ => hcovers
      · exact fun _ => h.live hwatches
      · exact fun _ => h.selfWoken hwatches
      · nofun
      · exact h.wakes
      · intro other hloaded
        obtain rfl := Option.some.inj hloaded
        cases hbegun : (s.tasks task).begun signal with
        | false => rfl
        | true => exact Bool.noConfusion (hflag.symm.trans (h.begun signal hbegun))
  | @push signal rest hphase =>
      have hwatches : (s.tasks task).phase.watches = true := by rw [hphase]; rfl
      constructor <;> rw [State.with_task_self]
      · exact h.begun
      · nofun
      · exact hregistered
      · intro other others hpushed
        obtain ⟨rfl, rfl⟩ := Phase.pushed.inj hpushed
        exact .inr ((s.mem_push_waiter).mpr (.inr ⟨rfl, rfl⟩))
      · have hcovers := h.covers hwatches
        rw [hphase] at hcovers
        exact fun _ => hcovers
      · exact fun _ => h.live hwatches
      · exact fun _ => h.selfWoken hwatches
      · nofun
      · exact h.wakes
      · intro other hloaded
        exact h.unset other (by rw [hphase]; exact hloaded)
  | @registered signal rest hphase hflag =>
      have hwatches : (s.tasks task).phase.watches = true := by rw [hphase]; rfl
      have hleft : (s.tasks task).phase.signals = signal :: rest := by rw [hphase]; rfl
      constructor <;> rw [State.with_task_self]
      · exact h.begun
      · nofun
      · intro hwoken other hmem
        cases List.mem_cons.mp hmem with
        | inr hin => exact hregistered hwoken other hin
        | inl heq =>
            subst heq
            cases h.pushed other rest hphase with
            | inl hset => exact Bool.noConfusion (hflag.symm.trans hset)
            | inr hwaits => exact .inl ⟨hflag, hwaits⟩
      · nofun
      · exact fun _ => h.covers_next hwatches hleft
      · exact fun _ => h.live hwatches
      · exact fun _ => h.selfWoken hwatches
      · nofun
      · intro other hmem hbegun
        cases List.mem_cons.mp hmem with
        | inr hin => exact h.wakes other hin hbegun
        | inl heq =>
            subst heq
            have hunset := h.unset other (by rw [hphase]; rfl)
            exact Bool.noConfusion (hunset.symm.trans hbegun)
      · nofun
  | recheck hphase =>
      have hwatches : (s.tasks task).phase.watches = true := by rw [hphase]; rfl
      constructor <;> rw [State.with_task_self]
      · exact h.begun
      · nofun
      · exact hregistered
      · nofun
      · have hcovers := h.covers hwatches
        rw [hphase] at hcovers
        exact fun _ => hcovers
      · exact fun _ => h.live hwatches
      · exact fun _ => h.selfWoken hwatches
      · nofun
      · exact h.wakes
      · nofun
  | pending hphase _ =>
      have hwatches : (s.tasks task).phase.watches = true := by rw [hphase]; rfl
      constructor <;> rw [State.with_task_self]
      · exact h.begun
      · nofun
      · exact hregistered
      · nofun
      · have hcovers := h.covers hwatches
        rw [hphase] at hcovers
        exact fun _ => hcovers
      · exact fun _ => h.live hwatches
      · exact fun _ => h.selfWoken hwatches
      · exact fun _ => h.selfWoken hwatches
      · exact h.wakes
      · nofun

/-- A step of a task keeps the third layer. -/
theorem Watching.task (h : Watching s) (hshape : Shape s) {task : TaskId}
    (hstep : TaskStep s task s') : Watching s' := by
  have hgraph := hstep.graph
  constructor
  · rw [hstep.threads, hgraph]
    exact h.drains
  · intro other
    by_cases heq : other = task
    · subst heq
      exact (h.tasks other).step hshape hstep
    · exact (h.tasks other).keep (.of_graph hgraph) (hstep.others heq)
        (fun signal hwatched => hwatched.task hstep) fun signal hmem => .inr (hstep.waiters hmem)

/-- A new task has not been polled. -/
theorem TaskWatched.spawn {task : TaskId} (h : TaskWatched s task) (token : CancellationToken)
    (habsent : (s.tasks task).phase = .absent) :
    TaskWatched (s.withTask task { s.tasks task with token := token, phase := .fresh }) task := by
  obtain ⟨hnone, hself⟩ := h.begins (by rw [habsent]; rfl)
  constructor <;> rw [State.with_task_self]
  · exact h.begun
  · exact fun _ => ⟨hnone, hself⟩
  · intro _ signal hmem
    have hin : signal ∈ (s.tasks task).registered := hmem
    rw [hnone] at hin
    cases hin
  · nofun
  · nofun
  · nofun
  · nofun
  · nofun
  · exact h.wakes
  · nofun

/-- A thread that is given its first work loses none. -/
theorem Watching.start (h : Watching s) (hgrows : Grows s s') {thread : ThreadId} {value : Thread}
    (hidle : (s.threads thread).work = []) (hflags : s'.graph.flags = s.graph.flags)
    (hwaiters : s'.waiters = s.waiters) (htasks : s'.tasks = s.tasks)
    (hthreads : s'.threads = s.threads)
    (hdrains : ∀ signal, .drainWaiters signal ∉ value.work) :
    Watching (s'.withThread thread value) := by
  refine h.keep (hgrows.trans (.of_graph rfl)) hflags hwaiters htasks ?_ ?_
  · intro other item hitem
    have hne : other ≠ thread := by
      rintro rfl
      rw [hidle] at hitem
      cases hitem
    rw [State.with_thread_ne _ _ hne, hthreads]
    exact hitem
  · intro other signal hdrain
    by_cases heq : other = thread
    · subst heq
      rw [State.with_thread_self] at hdrain
      exact absurd hdrain (hdrains signal)
    · rw [State.with_thread_ne _ _ heq, hthreads] at hdrain
      exact hdrain

/-- The third layer. -/
theorem Step.watching (h : Step s s') (hshape : Shape s) (hwatching : Watching s) :
    Watching s' := by
  have hgrows := h.grows
  cases h with
  | default | composite _ =>
      exact hwatching.keep hgrows rfl rfl rfl (fun _ _ hitem => hitem) fun _ _ hdrain => hdrain
  | startCancel hidle _ =>
      have hsame : Grows s s := .of_graph rfl
      refine hwatching.start hsame hidle rfl rfl rfl rfl ?_
      intro signal hdrain
      obtain ⟨_, _, heq⟩ := List.mem_map.mp hdrain
      cases heq
  | startAny hidle _ =>
      refine hwatching.start (s.allocate_grows _) hidle rfl rfl rfl rfl ?_
      intro signal hdrain
      cases List.mem_append.mp hdrain with
      | inl hpush =>
          obtain ⟨_, _, heq⟩ := List.mem_map.mp hpush
          cases heq
      | inr hlast =>
          cases List.mem_cons.mp hlast with
          | inl heq => cases heq
          | inr hpublish => cases List.mem_singleton.mp hpublish
  | work hthread hwork => exact hwatching.work hthread hwork
  | task htask => exact hwatching.task hshape htask
  | @spawn task token habsent _ =>
      constructor
      · exact hwatching.drains
      · intro other
        by_cases heq : other = task
        · subst heq
          exact (hwatching.tasks other).spawn token habsent
        · exact (hwatching.tasks other).keep hgrows (State.with_task_ne _ _ heq)
            (fun signal hwatched => hwatched.keep rfl (fun _ hmem => hmem)
              fun _ _ hitem => hitem)
            fun signal hmem => .inr hmem

/-- The third layer at the start. -/
theorem initial_watching : Watching .initial where
  drains _ _ h := absurd h List.not_mem_nil
  tasks _ := by
    constructor
    · nofun
    · exact fun _ => ⟨rfl, rfl⟩
    · exact fun _ _ hmem => absurd hmem List.not_mem_nil
    · nofun
    · nofun
    · nofun
    · nofun
    · nofun
    · exact fun _ hmem => absurd hmem List.not_mem_nil
    · nofun

/-- All three layers. -/
structure Coherent (s : State) : Prop where
  shape : Shape s
  covered : Covered s
  watching : Watching s

/-- Every run keeps them. -/
theorem run_coherent (h : Transition.Run Step .initial s) : Coherent s := by
  refine Transition.Preserves.run ?_ h ⟨initial_shape, initial_covered, initial_watching⟩
  intro before after hbefore hstep
  exact ⟨hstep.shape hbefore.shape, hstep.covered hbefore.shape hbefore.covered,
    hstep.watching hbefore.shape hbefore.watching⟩

/-! ## Idle calls -/

/-- Every call of `cancel` that was started has returned. -/
def CancelsReturned (s : State) : Prop :=
  ∀ thread token, (s.threads thread).call = .cancel token → (s.threads thread).work = []

/-- What is left to do then is the work of calls of `any` on states that nobody holds. -/
theorem Shape.own_of_returned (h : Shape s) (hreturned : CancelsReturned s) {thread : ThreadId}
    {item : Work} (hitem : item ∈ (s.threads thread).work) :
    ∃ own, Unpublished s own ∧ (Own s own item ∨ ∃ token, item = .publish token) := by
  have hok := h.threads thread
  unfold ThreadOk at hok
  cases hcall : (s.threads thread).call with
  | cancel token =>
      rw [hreturned thread token hcall] at hitem
      cases hitem
  | any own =>
      rw [hcall] at hok
      cases hok with
      | inl hnone =>
          rw [hnone] at hitem
          cases hitem
      | inr hwork =>
          obtain ⟨hown, before, constituents, hsplit, _, _, hitems, _⟩ := hwork
          rw [hsplit] at hitem
          cases List.mem_append.mp hitem with
          | inl hbefore => exact ⟨own, hown, .inl (hitems item hbefore)⟩
          | inr hlast => exact ⟨own, hown, .inr ⟨_, List.mem_singleton.mp hlast⟩⟩

/-- Such work is no obligation to a state that a held token keeps alive. -/
theorem Shape.not_obliged (h : Shape s) (hreturned : CancelsReturned s) {thread : ThreadId}
    {item : Work} (hitem : item ∈ (s.threads thread).work) {token : CancellationToken}
    {node : SignalId} (htoken : token ∈ s.graph.handles) (hnode : node ∈ token.nodes) :
    ¬ Obliged s node item := by
  intro hobliged
  obtain ⟨own, hown, hitemOwn | ⟨published, rfl⟩⟩ := h.own_of_returned hreturned hitem
  · have hne : node ≠ own := hown.ne htoken hnode
    cases item with
    | cancelSignal signal | sourceChanged signal =>
        exact hne (hobliged.symm.trans hitemOwn)
    | reading read begun => exact hne (hobliged.1.symm.trans hitemOwn)
    | drainWaiters signal =>
        obtain rfl : signal = own := hitemOwn
        have hlisted : node ∈ s.graph.dependents signal := hobliged
        rw [hown.dependents] at hlisted
        cases hlisted
    | cloneDependents signal waiters =>
        obtain ⟨rfl, _⟩ := hitemOwn
        have hlisted : node ∈ s.graph.dependents signal := hobliged
        rw [hown.dependents] at hlisted
        cases hlisted
    | notify dependents =>
        obtain rfl : dependents = [] := hitemOwn
        cases hobliged
    | wake _ | pushDependent _ _ | checkDependent _ _ | publish _ => exact hobliged
  · exact hobliged

/-- Then no state lags behind that a held token keeps alive: it is cancelled by its signals. -/
theorem Coherent.flagged (h : Coherent s) (hreturned : CancelsReturned s)
    {token : CancellationToken} (htoken : token ∈ s.graph.handles)
    (hcancelled : s.graph.isCancelled token = true) : s.graph.Flagged token := by
  refine (h.shape.handles token htoken).flagged_of_cancelled ?_ hcancelled
  intro node hnode constituents hheap hbelow
  cases hflag : s.graph.flags node with
  | true => rfl
  | false =>
      obtain ⟨thread, item, hitem, hobliged⟩ :=
        h.covered.behind node ⟨hflag, constituents, hheap, hbelow⟩
      exact absurd hobliged (h.shape.not_obliged hreturned hitem htoken hnode)

/-- Nor does anybody have waiters of its signals to wake. -/
theorem Shape.not_wakes (h : Shape s) (hreturned : CancelsReturned s) {thread : ThreadId}
    {item : Work} (hitem : item ∈ (s.threads thread).work) (task : TaskId) :
    ¬ WakesTask task item := by
  intro hwakes
  obtain ⟨own, _, hown | ⟨token, rfl⟩⟩ := h.own_of_returned hreturned hitem
  · cases item with
    | cloneDependents signal waiters =>
        obtain ⟨_, rfl⟩ := hown
        cases hwakes
    | wake waiters =>
        obtain rfl : waiters = [] := hown
        cases hwakes
    | cancelSignal _ | drainWaiters _ | notify _ | sourceChanged _ | reading _ _
    | pushDependent _ _ | checkDependent _ _ | publish _ => exact hwakes
  · exact hwakes

/-- A token that was live at some moment reaches a signal. -/
theorem exists_signal_of_live {token : CancellationToken} {g : TokenGraph} (hbuilt : Built g token)
    (hlive : ∃ flags, cancelledAt flags token = false) : ∃ signal, signal ∈ token.signals := by
  obtain ⟨flags, hlive⟩ := hlive
  cases hsignals : token.signals with
  | cons signal rest => exact ⟨signal, List.mem_cons_self⟩
  | nil =>
      have hflagged : ({ g with flags := flags } : TokenGraph).Flagged token := by
        intro signal hmem
        rw [hsignals] at hmem
        cases hmem
      have hcancelled := hbuilt.cancelled_of_flagged hflagged
      exact Bool.noConfusion (hlive.symm.trans hcancelled)

/-- No wake-up is lost: once the calls of `cancel` have returned, a task that waits and was not
woken since its last poll waits for a token that is not cancelled. -/
theorem Coherent.no_lost_wake (h : Coherent s) (hreturned : CancelsReturned s) {task : TaskId}
    (hpending : (s.tasks task).phase = .pending) (hwoken : (s.tasks task).woken = false) :
    s.graph.isCancelled (s.tasks task).token = false := by
  cases hcancelled : s.graph.isCancelled (s.tasks task).token with
  | false => rfl
  | true =>
      have hheld : (s.tasks task).token ∈ s.graph.handles := by
        cases h.shape.tasks task with
        | inr hwaits => exact hwaits.1
        | inl habsent => cases habsent.symm.trans hpending
      have hbuilt := h.shape.handles _ hheld
      have hflagged := h.flagged hreturned hheld hcancelled
      have htask := h.watching.tasks task
      have hwatches : (s.tasks task).phase.watches = true := by
        rw [hpending]
        rfl
      obtain ⟨signal, hsignal⟩ := exists_signal_of_live hbuilt (htask.live hwatches)
      have hregistered : signal ∈ (s.tasks task).registered := by
        cases htask.covers hwatches signal hsignal with
        | inl hdone => exact hdone
        | inr hleft =>
            rw [hpending] at hleft
            cases hleft
      rcases htask.watched hwoken signal hregistered with
        ⟨hflag, _⟩ | ⟨_, thread, hdrain⟩ | ⟨thread, item, hitem, hwakes⟩
      · exact Bool.noConfusion (hflag.symm.trans (hflagged signal hsignal))
      · obtain ⟨own, hown, hsame | ⟨_, heq⟩⟩ := h.shape.own_of_returned hreturned hdrain
        · exact absurd hsame (hown.ne hheld (hbuilt.signals_subset signal hsignal))
        · cases heq
      · exact absurd hwakes (h.shape.not_wakes hreturned hitem task)

/-! ## Polls that wake their own task -/

/-- A state that the token keeps alive was cancelled during the last poll. -/
def Task.Changed (task : Task) : Prop :=
  ∃ node ∈ task.token.nodes, task.begun node ≠ task.ended node

/-- No signal that `register_waiter` reaches was set when the last poll began. -/
def Task.StartsClear (task : Task) : Prop :=
  ∀ signal ∈ task.token.signals, task.begun signal = false

/-- A poll that meets a signal which was set before wakes its own task. -/
theorem Coherent.self_woken (h : Coherent s) {task : TaskId}
    (hpending : (s.tasks task).phase = .pending) (hset : ¬ (s.tasks task).StartsClear) :
    (s.tasks task).selfWoken = true := by
  have htask := h.watching.tasks task
  obtain ⟨signal, hset⟩ := not_forall.mp hset
  obtain ⟨hsignal, hbegun⟩ := not_forall.mp hset
  cases htask.covers (by rw [hpending]; rfl) signal hsignal with
  | inl hdone => exact htask.wakes signal hdone (Bool.eq_true_of_not_eq_false hbegun)
  | inr hleft =>
      rw [hpending] at hleft
      cases hleft

/-- A poll that starts clear wakes its own task only when a signal was set meanwhile. -/
theorem Coherent.changed_of_clear (h : Coherent s) {task : TaskId}
    (hpending : (s.tasks task).phase = .pending) (hclear : (s.tasks task).StartsClear)
    (hwoken : (s.tasks task).selfWoken = true) : (s.tasks task).Changed := by
  have hheld : (s.tasks task).token ∈ s.graph.handles := by
    cases h.shape.tasks task with
    | inr hwaits => exact hwaits.1
    | inl habsent => cases habsent.symm.trans hpending
  obtain ⟨signal, hsignal, hended⟩ := (h.watching.tasks task).ended hpending hwoken
  refine ⟨signal, (h.shape.handles _ hheld).signals_subset signal hsignal, ?_⟩
  rw [hclear signal hsignal, hended]
  exact Bool.false_ne_true

/-- Steps of a task with nobody else at work, within one poll. -/
structure Alone (s : State) (task : TaskId) (phase : Phase) (s' : State) : Prop where
  run : Transition.Run (fun before after => TaskStep before task after) s s'
  graph : s'.graph = s.graph
  phase : (s'.tasks task).phase = phase
  token : (s'.tasks task).token = (s.tasks task).token
  begun : (s'.tasks task).begun = (s.tasks task).begun

theorem Alone.trans {task : TaskId} {phase final : Phase} {s'' : State}
    (h : Alone s task phase s') (hnext : Alone s' task final s'') : Alone s task final s'' where
  run := h.run.trans hnext.run
  graph := hnext.graph.trans h.graph
  phase := hnext.phase
  token := hnext.token.trans h.token
  begun := hnext.begun.trans h.begun

/-- One step that starts no poll. -/
theorem Alone.step {task : TaskId} {value : Task} (h : TaskStep s task s')
    (hvalue : s'.tasks task = value) (htoken : value.token = (s.tasks task).token)
    (hbegun : value.begun = (s.tasks task).begun) : Alone s task value.phase s' where
  run := .single h
  graph := h.graph
  phase := by rw [hvalue]
  token := by rw [hvalue, htoken]
  begun := by rw [hvalue, hbegun]

/-- `register_waiter` of one signal. -/
theorem register_one {task : TaskId} {signal : SignalId} {rest : List SignalId}
    (h : (s.tasks task).phase = .registering (signal :: rest)) :
    ∃ s', Alone s task (.registering rest) s' := by
  cases hflag : s.graph.flags signal with
  | true => exact ⟨_, .step (.wakeBefore h hflag) (State.with_task_self ..) rfl rfl⟩
  | false =>
      obtain ⟨loaded, hloaded⟩ : ∃ s', Alone s task (.pushing signal rest) s' :=
        ⟨_, .step (.unset h hflag) (State.with_task_self ..) rfl rfl⟩
      obtain ⟨pushed, hpushed⟩ : ∃ s', Alone loaded task (.pushed signal rest) s' :=
        ⟨_, .step (.push hloaded.phase) (State.with_task_self ..) rfl rfl⟩
      have hgraph := hpushed.graph.trans hloaded.graph
      have hstill : pushed.graph.flags signal = false := by rw [hgraph, hflag]
      obtain ⟨done, hdone⟩ : ∃ s', Alone pushed task (.registering rest) s' :=
        ⟨_, .step (.registered hpushed.phase hstill) (State.with_task_self ..) rfl rfl⟩
      exact ⟨done, (hloaded.trans hpushed).trans hdone⟩

/-- `register_waiter` of all signals. -/
theorem register_all {task : TaskId} {rest : List SignalId}
    (h : (s.tasks task).phase = .registering rest) :
    ∃ s', Alone s task (.registering []) s' := by
  induction rest generalizing s with
  | nil => exact ⟨s, .refl, rfl, h, rfl, rfl⟩
  | cons signal rest ih =>
      obtain ⟨between, hone⟩ := register_one h
      obtain ⟨done, hrest⟩ := ih hone.phase
      exact ⟨done, hone.trans hrest⟩

/-- A poll of a live token returns pending when nobody else is at work, and nothing changes. -/
theorem poll_alone {task : TaskId}
    (h : (s.tasks task).phase = .fresh ∨ (s.tasks task).phase = .pending)
    (hlive : s.graph.isCancelled (s.tasks task).token = false) :
    ∃ s', Transition.Run (fun before after => TaskStep before task after) s s' ∧
      s'.graph = s.graph ∧ (s'.tasks task).phase = .pending ∧
      (s'.tasks task).token = (s.tasks task).token ∧
      (s'.tasks task).begun = s.graph.flags ∧ (s'.tasks task).ended = s.graph.flags := by
  obtain ⟨polled, hpoll, hgraph, hphase, htoken, hbegun⟩ : ∃ s', TaskStep s task s' ∧
      s'.graph = s.graph ∧ (s'.tasks task).phase = .checking s.graph.flags ∧
      (s'.tasks task).token = (s.tasks task).token ∧ (s'.tasks task).begun = s.graph.flags := by
    refine ⟨_, .poll h, rfl, ?_⟩
    rw [State.with_task_self]
    exact ⟨rfl, rfl, rfl⟩
  obtain ⟨live, hchecked⟩ :
      ∃ s', Alone polled task (.registering (polled.tasks task).token.signals) s' := by
    refine ⟨_, .step (.live hphase ?_) (State.with_task_self ..) rfl rfl⟩
    rw [htoken]
    exact hlive
  obtain ⟨registered, hregister⟩ := register_all hchecked.phase
  obtain ⟨read, hread⟩ : ∃ s', Alone registered task (.rechecking registered.graph.flags) s' :=
    ⟨_, .step (.recheck hregister.phase) (State.with_task_self ..) rfl rfl⟩
  have hall := (hchecked.trans hregister).trans hread
  have hflags : registered.graph.flags = s.graph.flags := by
    rw [hregister.graph, hchecked.graph, hgraph]
  have hstill : cancelledAt registered.graph.flags (read.tasks task).token = false := by
    rw [hall.token, htoken, hflags]
    exact hlive
  have hpending := TaskStep.pending hread.phase hstill
  refine ⟨_, (Relation.ReflTransGen.head hpoll hall.run).tail hpending, ?_, ?_⟩
  · rw [State.with_task_graph, hall.graph, hgraph]
  · rw [State.with_task_self]
    refine ⟨rfl, hall.token.trans htoken, hall.begun.trans hbegun, ?_⟩
    show read.graph.flags = s.graph.flags
    rw [hall.graph, hgraph]

/-- Steps of one task are steps of the program. -/
theorem run_of_task {task : TaskId}
    (h : Transition.Run (fun before after => TaskStep before task after) s s') :
    Transition.Run Step s s' :=
  Relation.ReflTransGen.mono (fun _ _ hstep => Step.task hstep) _ _ h

/-- The poll of a live composite with a cancelled member, alone, wakes its own task. -/
theorem poll_spins (h : Transition.Run Step .initial s) {task : TaskId}
    (hphase : (s.tasks task).phase = .fresh ∨ (s.tasks task).phase = .pending)
    (hlive : s.graph.isCancelled (s.tasks task).token = false)
    (hset : ∃ signal ∈ (s.tasks task).token.signals, s.graph.flags signal = true) :
    ∃ s', Transition.Run (fun before after => TaskStep before task after) s s' ∧
      s'.graph = s.graph ∧ (s'.tasks task).phase = .pending ∧
      (s'.tasks task).selfWoken = true ∧ ¬ (s'.tasks task).Changed := by
  obtain ⟨s', hrun, hgraph, hpending, htoken, hbegun, hended⟩ := poll_alone hphase hlive
  refine ⟨s', hrun, hgraph, hpending, ?_, ?_⟩
  · refine (run_coherent (h.trans (run_of_task hrun))).self_woken hpending ?_
    intro hclear
    obtain ⟨signal, hsignal, hflag⟩ := hset
    have hunset := hclear signal (htoken.symm ▸ hsignal)
    rw [hbegun, hflag] at hunset
    cases hunset
  · rintro ⟨node, _, hne⟩
    rw [hbegun, hended] at hne
    exact hne rfl

/-- A task that waits for two tokens, of which one is cancelled, can be polled while no call of
`cancel` is running. -/
theorem exists_cancelled_member : ∃ s, Transition.Run Step .initial s ∧ CancelsReturned s ∧
    (s.tasks 0).phase = .fresh ∧ s.graph.isCancelled (s.tasks 0).token = false ∧
    ∃ signal ∈ (s.tasks 0).token.signals, s.graph.flags signal = true := by
  let first : CancellationToken := .single 0
  let both : CancellationToken := compositeToken [first, .single 1]
  let built := (((State.initial.allocate none).hold first).allocate none).hold (.single 1)
  let composed := built.hold both
  let started := composed.withThread 0 ⟨.cancel first, [.cancelSignal 0]⟩
  let swapped := (started.setFlag 0).withThread 0 ⟨.cancel first, [.drainWaiters 0]⟩
  let drained := (swapped.withWaiters 0 []).withThread 0 ⟨.cancel first, [.cloneDependents 0 []]⟩
  let cloned := drained.withThread 0 ⟨.cancel first, [.wake [], .notify []]⟩
  let woken := cloned.withThread 0 ⟨.cancel first, [.notify []]⟩
  let returned := woken.withThread 0 ⟨.cancel first, []⟩
  let waiting := returned.withTask 0 { returned.tasks 0 with token := both, phase := .fresh }
  have hbuilt : Transition.Run Step .initial built := .tail (.single .default) .default
  have hcomposed : Step built composed := by
    refine .composite ?_
    intro member hmember
    rcases List.mem_cons.mp hmember with rfl | hlast
    · exact List.mem_cons_of_mem _ List.mem_cons_self
    · exact (List.mem_singleton.mp hlast) ▸ List.mem_cons_self
  have hstarted : Step composed started :=
    .startCancel rfl (List.mem_cons_of_mem _ (List.mem_cons_of_mem _ List.mem_cons_self))
  have hswapped : Step started swapped := .work rfl (.swap rfl)
  have hdrained : Step swapped drained := .work rfl .drain
  have hcloned : Step drained cloned := .work rfl .clone
  have hwoken : Step cloned woken := .work rfl .allWoken
  have hreturned : Step woken returned := .work rfl .allNotified
  have hwaiting : Step returned waiting := .spawn rfl List.mem_cons_self
  refine ⟨waiting, ?_, ?_, rfl, rfl, 0, mem_composite_signals.mpr ?_, rfl⟩
  · exact ((((((((hbuilt.tail hcomposed).tail hstarted).tail hswapped).tail hdrained).tail
      hcloned).tail hwoken).tail hreturned).tail hwaiting)
  · intro thread token hcall
    by_cases heq : thread = 0
    · subst heq
      rfl
    · have hidle : waiting.threads thread = ⟨.any 0, []⟩ := by
        calc waiting.threads thread
          _ = woken.threads thread := woken.with_thread_ne _ heq
          _ = cloned.threads thread := cloned.with_thread_ne _ heq
          _ = drained.threads thread := drained.with_thread_ne _ heq
          _ = swapped.threads thread := (swapped.withWaiters 0 []).with_thread_ne _ heq
          _ = started.threads thread := (started.setFlag 0).with_thread_ne _ heq
          _ = composed.threads thread := composed.with_thread_ne _ heq
          _ = ⟨.any 0, []⟩ := rfl
      rw [hidle]
  · exact ⟨first, List.mem_cons_self, List.mem_singleton.mpr rfl⟩

/-- A poll of a composite with a cancelled member wakes its own task although nothing changes. -/
theorem composite_wait_spins : ¬ ∀ s, Transition.Run Step .initial s → ∀ task,
    (s.tasks task).phase = .pending → (s.tasks task).selfWoken = true →
      (s.tasks task).Changed := by
  intro hclaim
  obtain ⟨s, hrun, _, hfresh, hlive, hset⟩ := exists_cancelled_member
  obtain ⟨s', hpoll, _, hpending, hwoken, hsame⟩ := poll_spins hrun (.inl hfresh) hlive hset
  exact hsame (hclaim s' (hrun.trans (run_of_task hpoll)) 0 hpending hwoken)

/-- Waiting for cancellation. No wake-up is lost: once the calls of `cancel` have returned, a task
that waits and was not woken waits for a token that is not cancelled. A poll that returns pending
wakes its own task only when a constituent was cancelled meanwhile, exactly if no signal was set
when it began or one was set meanwhile. From every state in which a live token has a signal that is
set, a poll wakes its own task although nothing changes. -/
theorem cancellation_waits (h : Transition.Run Step .initial s) (task : TaskId) :
    (CancelsReturned s → (s.tasks task).phase = .pending → (s.tasks task).woken = false →
      s.graph.isCancelled (s.tasks task).token = false) ∧
    ((s.tasks task).phase = .pending →
      (((s.tasks task).selfWoken = true → (s.tasks task).Changed) ↔
        (s.tasks task).StartsClear ∨ (s.tasks task).Changed)) ∧
    ((s.tasks task).phase = .fresh ∨ (s.tasks task).phase = .pending →
      s.graph.isCancelled (s.tasks task).token = false →
      (∃ signal ∈ (s.tasks task).token.signals, s.graph.flags signal = true) →
      ∃ s', Transition.Run (fun before after => TaskStep before task after) s s' ∧
        s'.graph = s.graph ∧ (s'.tasks task).phase = .pending ∧
        (s'.tasks task).selfWoken = true ∧ ¬ (s'.tasks task).Changed) := by
  have hcoherent := run_coherent h
  refine ⟨fun hreturned => hcoherent.no_lost_wake hreturned, ?_, poll_spins h⟩
  intro hpending
  constructor
  · intro hwakes
    by_cases hclear : (s.tasks task).StartsClear
    · exact .inl hclear
    · exact .inr (hwakes (hcoherent.self_woken hpending hclear))
  · rintro (hclear | hchanged) hwoken
    · exact hcoherent.changed_of_clear hpending hclear hwoken
    · exact hchanged

/-- A task that spins. -/
theorem cancellation_waits_composite : ∃ s s', Transition.Run Step .initial s ∧
    CancelsReturned s ∧ Transition.Run (fun before after => TaskStep before 0 after) s s' ∧
    (s'.tasks 0).phase = .pending ∧ (s'.tasks 0).selfWoken = true ∧ ¬ (s'.tasks 0).Changed := by
  obtain ⟨s, hrun, hreturned, hfresh, hlive, hset⟩ := exists_cancelled_member
  obtain ⟨s', hpoll, _, hspins⟩ :=
    (cancellation_waits hrun 0).2.2 (.inl hfresh) hlive hset
  exact ⟨s, s', hrun, hreturned, hpoll, hspins⟩

end EmbeddingServer.TokenRace
