import EmbeddingServer.Core.TokenRace
import EmbeddingServer.Lib.Transition

/-!
# Who can touch which state

What a step of the race can change, and the first layer of its invariants: until `any` returns,
nobody but its own thread cancels anything through the new state, and nobody waits for it.
-/

namespace EmbeddingServer.TokenRace

open TokenGraph

/-! ## What a step does -/

namespace State

variable (s : State)

@[simp] theorem with_thread_graph (thread : ThreadId) (value : Thread) :
    (s.withThread thread value).graph = s.graph := rfl

@[simp] theorem with_thread_waiters (thread : ThreadId) (value : Thread) :
    (s.withThread thread value).waiters = s.waiters := rfl

@[simp] theorem with_thread_tasks (thread : ThreadId) (value : Thread) :
    (s.withThread thread value).tasks = s.tasks := rfl

@[simp] theorem with_thread_self (thread : ThreadId) (value : Thread) :
    (s.withThread thread value).threads thread = value := Function.update_self ..

theorem with_thread_ne {thread other : ThreadId} (value : Thread) (h : other ≠ thread) :
    (s.withThread thread value).threads other = s.threads other := Function.update_of_ne h ..

@[simp] theorem with_task_graph (task : TaskId) (value : Task) :
    (s.withTask task value).graph = s.graph := rfl

@[simp] theorem with_task_waiters (task : TaskId) (value : Task) :
    (s.withTask task value).waiters = s.waiters := rfl

@[simp] theorem with_task_threads (task : TaskId) (value : Task) :
    (s.withTask task value).threads = s.threads := rfl

@[simp] theorem with_task_self (task : TaskId) (value : Task) :
    (s.withTask task value).tasks task = value := Function.update_self ..

theorem with_task_ne {task other : TaskId} (value : Task) (h : other ≠ task) :
    (s.withTask task value).tasks other = s.tasks other := Function.update_of_ne h ..

/-- A dependent that is added is listed, and those that are listed stay. -/
theorem mem_add_dependent {dependent signal other source : SignalId} :
    other ∈ (s.addDependent dependent signal).graph.dependents source ↔
      other ∈ s.graph.dependents source ∨ other = dependent ∧ source = signal := by
  unfold addDependent
  by_cases heq : source = signal
  · subst heq
    simp only [Function.update_self, and_true]
    split
    · rename_i hlisted
      constructor
      · exact .inl
      · rintro (hmem | rfl)
        · exact hmem
        · exact hlisted
    · rw [List.mem_append, List.mem_singleton]
  · simp [heq]

/-- A task that is added to the waiters is among them, and those that are stay. -/
theorem mem_push_waiter {task other : TaskId} {signal source : SignalId} :
    other ∈ (s.withWaiters signal
      (if task ∈ s.waiters signal then s.waiters signal
        else s.waiters signal ++ [task])).waiters source ↔
      other ∈ s.waiters source ∨ other = task ∧ source = signal := by
  unfold withWaiters
  by_cases heq : source = signal
  · subst heq
    simp only [Function.update_self, and_true]
    split
    · rename_i hlisted
      constructor
      · exact .inl
      · rintro (hmem | rfl)
        · exact hmem
        · exact hlisted
    · rw [List.mem_append, List.mem_singleton]
  · simp [heq]

end State

/-- What no step takes back. -/
structure Grows (s s' : State) : Prop where
  next : s.graph.next ≤ s'.graph.next
  heap : ∀ signal, signal < s.graph.next → s'.graph.heap signal = s.graph.heap signal
  handles : ∀ token ∈ s.graph.handles, token ∈ s'.graph.handles
  flags : ∀ signal, s.graph.flags signal = true → s'.graph.flags signal = true
  dependents : ∀ signal dependent, dependent ∈ s.graph.dependents signal →
    dependent ∈ s'.graph.dependents signal

/-- The graph did not change. -/
theorem Grows.of_graph {s s' : State} (h : s'.graph = s.graph) : Grows s s' := by
  constructor
  · rw [h]
  · intro _ _
    rw [h]
  · intro _ hmem
    rw [h]
    exact hmem
  · intro _ hflag
    rw [h]
    exact hflag
  · intro _ _ hmem
    rw [h]
    exact hmem

theorem Grows.trans {first second third : State} (h : Grows first second)
    (hnext : Grows second third) : Grows first third where
  next := Nat.le_trans h.next hnext.next
  heap signal hlt := (hnext.heap signal (Nat.lt_of_lt_of_le hlt h.next)).trans (h.heap signal hlt)
  handles token hmem := hnext.handles token (h.handles token hmem)
  flags signal hflag := hnext.flags signal (h.flags signal hflag)
  dependents signal dependent hmem :=
    hnext.dependents signal dependent (h.dependents signal dependent hmem)

/-- A built token stays built. -/
theorem Grows.built {s s' : State} (h : Grows s s') {token : CancellationToken}
    (hbuilt : Built s.graph token) : Built s'.graph token :=
  hbuilt.extend h.next h.heap

theorem State.allocate_grows (s : State) (constituents : Option (List CancellationToken)) :
    Grows s (s.allocate constituents) where
  next := Nat.le_succ _
  heap _ hlt := Function.update_of_ne (Nat.ne_of_lt hlt) ..
  handles _ h := h
  flags _ h := h
  dependents _ _ h := h

theorem State.hold_grows (s : State) (token : CancellationToken) : Grows s (s.hold token) where
  next := Nat.le_refl _
  heap _ _ := rfl
  handles _ h := List.mem_cons_of_mem _ h
  flags _ h := h
  dependents _ _ h := h

theorem State.set_flag_grows (s : State) (signal : SignalId) : Grows s (s.setFlag signal) where
  next := Nat.le_refl _
  heap _ _ := rfl
  handles _ h := h
  flags other h := by
    by_cases heq : other = signal
    · subst heq
      exact Function.update_self ..
    · exact (Function.update_of_ne heq ..).trans h
  dependents _ _ h := h

theorem State.add_dependent_grows (s : State) (dependent signal : SignalId) :
    Grows s (s.addDependent dependent signal) where
  next := Nat.le_refl _
  heap _ _ := rfl
  handles _ h := h
  flags _ h := h
  dependents _ _ h := (s.mem_add_dependent).mpr (.inl h)

variable {s s' : State} {first : Work} {next : List Work}

/-- A step of a thread on the shared state. -/
theorem WorkStep.grows (h : WorkStep s first s' next) : Grows s s' := by
  cases h with
  | swap _ => exact s.set_flag_grows _
  | pushDependent => exact s.add_dependent_grows _ _
  | publish => exact s.hold_grows _
  | cancelledBefore | drain | clone | wake | allWoken | notify | allNotified | read | due | idle
  | dependentDue | dependentIdle => exact .of_graph rfl

theorem WorkStep.threads (h : WorkStep s first s' next) : s'.threads = s.threads := by
  cases h <;> rfl

theorem TaskStep.graph {task : TaskId} (h : TaskStep s task s') : s'.graph = s.graph := by
  cases h <;> rfl

theorem TaskStep.threads {task : TaskId} (h : TaskStep s task s') : s'.threads = s.threads := by
  cases h <;> rfl

theorem TaskStep.others {task other : TaskId} (h : TaskStep s task s') (hne : other ≠ task) :
    s'.tasks other = s.tasks other := by
  cases h <;> exact State.with_task_ne _ _ hne

/-- No step takes anything back. -/
theorem Step.grows (h : Step s s') : Grows s s' := by
  cases h with
  | default => exact (s.allocate_grows none).trans (State.hold_grows _ _)
  | composite _ => exact s.hold_grows _
  | startCancel _ _ | spawn _ _ => exact .of_graph rfl
  | startAny _ _ => exact (s.allocate_grows _).trans (.of_graph rfl)
  | work _ hwork => exact hwork.grows.trans (.of_graph rfl)
  | task htask => exact .of_graph htask.graph

/-! ## Who can touch what -/

/-- What `any` may have left to do for its own state before it returns. -/
def Own (s : State) (own : SignalId) : Work → Prop
  | .cancelSignal signal | .drainWaiters signal => signal = own
  | .sourceChanged dependent | .reading dependent _ => dependent = own
  | .cloneDependents signal waiters => signal = own ∧ waiters = []
  | .wake waiters => waiters = []
  | .notify dependents => dependents = []
  | .pushDependent dependent signal =>
      dependent = own ∧ ∃ token ∈ s.graph.handles, signal ∈ token.nodes
  | .checkDependent dependent _ => dependent = own
  | .publish _ => False

/-- What `cancel` may have left to do. -/
def Work.cancels : Work → Bool
  | .pushDependent _ _ | .checkDependent _ _ | .publish _ => false
  | .cancelSignal _ | .drainWaiters _ | .cloneDependents _ _ | .wake _ | .notify _
  | .sourceChanged _ | .reading _ _ => true

/-- The thread of `any`: it returns last, and before that, as long as it registers, it reads its
constituents once more. -/
def AnyWork (s : State) (own : SignalId) (work : List Work) : Prop :=
  ∃ before constituents, work = before ++ [.publish (.any own constituents)] ∧
    s.graph.heap own = some constituents ∧ (∀ token ∈ constituents, token ∈ s.graph.handles) ∧
    (∀ item ∈ before, Own s own item) ∧
    ∀ signal, .pushDependent own signal ∈ before → ∃ init, before = init ++ [.sourceChanged own]

/-- Nobody holds the state, depends on it or waits for it. -/
structure Unpublished (s : State) (own : SignalId) : Prop where
  exists_ : own < s.graph.next
  held : ∀ token ∈ s.graph.handles, own ∉ token.nodes
  dependents : s.graph.dependents own = []
  waiters : s.waiters own = []

/-- A thread does what its call does. -/
def ThreadOk (s : State) (thread : Thread) : Prop :=
  match thread.call with
  | .cancel _ => ∀ item ∈ thread.work, item.cancels = true
  | .any own => thread.work = [] ∨ Unpublished s own ∧ AnyWork s own thread.work

/-- The signals that a poll has yet to deal with. -/
def Phase.signals : Phase → List SignalId
  | .registering rest => rest
  | .pushing signal rest | .pushed signal rest => signal :: rest
  | .absent | .fresh | .checking _ | .rechecking _ | .pending | .ready => []

/-- A task waits for a held token. -/
def TaskOk (s : State) (task : Task) : Prop :=
  task.phase = .absent ∨
    task.token ∈ s.graph.handles ∧ ∀ signal ∈ task.phase.signals, signal ∈ task.token.signals

/-- The first layer. -/
structure Shape (s : State) : Prop where
  handles : ∀ token ∈ s.graph.handles, Built s.graph token
  heap : ∀ signal constituents, s.graph.heap signal = some constituents →
    Built s.graph (.any signal constituents)
  fresh : ∀ signal, s.graph.next ≤ signal →
    s.graph.dependents signal = [] ∧ s.waiters signal = []
  threads : ∀ thread, ThreadOk s (s.threads thread)
  distinct : ∀ thread other own, (s.threads thread).call = .any own →
    (s.threads other).call = .any own → (s.threads thread).work ≠ [] →
    (s.threads other).work ≠ [] → thread = other
  tasks : ∀ task, TaskOk s (s.tasks task)

/-- Own work stays own. -/
theorem Own.grows {own : SignalId} {item : Work} (hgrows : Grows s s') (h : Own s own item) :
    Own s' own item := by
  cases item with
  | pushDependent dependent signal =>
      obtain ⟨hown, token, htoken, hnode⟩ := h
      exact ⟨hown, token, hgrows.handles token htoken, hnode⟩
  | cancelSignal _ | drainWaiters _ | cloneDependents _ _ | wake _ | notify _ | sourceChanged _
  | reading _ _ | checkDependent _ _ => exact h
  | publish _ => exact h.elim

theorem AnyWork.grows {own : SignalId} {work : List Work} (hgrows : Grows s s')
    (hlt : own < s.graph.next) (h : AnyWork s own work) : AnyWork s' own work := by
  obtain ⟨before, constituents, hwork, hheap, hheld, hown, hlast⟩ := h
  exact ⟨before, constituents, hwork, (hgrows.heap own hlt).trans hheap,
    fun token htoken => hgrows.handles token (hheld token htoken),
    fun item hitem => (hown item hitem).grows hgrows, hlast⟩

/-- A thread that does not step stays as it is, if its state stays unpublished. -/
theorem ThreadOk.grows {thread : Thread} (hgrows : Grows s s')
    (hkeep : ∀ own, thread.call = .any own → thread.work ≠ [] → Unpublished s own →
      Unpublished s' own) (h : ThreadOk s thread) : ThreadOk s' thread := by
  unfold ThreadOk at h ⊢
  cases hcall : thread.call with
  | cancel _ =>
      rw [hcall] at h
      exact h
  | any own =>
      rw [hcall] at h
      cases h with
      | inl hnone => exact .inl hnone
      | inr hwork =>
          by_cases hnone : thread.work = []
          · exact .inl hnone
          · exact .inr ⟨hkeep own hcall hnone hwork.1, hwork.2.grows hgrows hwork.1.exists_⟩

theorem TaskOk.grows {task : Task} (hgrows : Grows s s') (h : TaskOk s task) : TaskOk s' task := by
  cases h with
  | inl habsent => exact .inl habsent
  | inr hwaits => exact .inr ⟨hgrows.handles _ hwaits.1, hwaits.2⟩

/-- Built states keep their constituents built. -/
theorem Shape.built_heap (h : Shape s) {signal : SignalId} {constituents : List CancellationToken}
    (hheap : s.graph.heap signal = some constituents) :
    signal < s.graph.next ∧ ∀ token ∈ constituents, Built s.graph token := by
  cases h.heap signal constituents hheap with
  | any hlt _ hconstituents _ => exact ⟨hlt, hconstituents⟩

/-- A signal of a held token is not the own signal of an unpublished state. -/
theorem Unpublished.ne {own signal : SignalId} {token : CancellationToken}
    (h : Unpublished s own) (htoken : token ∈ s.graph.handles) (hnode : signal ∈ token.nodes) :
    signal ≠ own := by
  intro heq
  exact h.held token htoken (heq ▸ hnode)

/-- What is left of a thread after a step of it. -/
theorem AnyWork.step {own : SignalId} {rest : List Work} (h : AnyWork s own (first :: rest))
    (hunpublished : Unpublished s own) (hstep : WorkStep s first s' next) :
    (∃ constituents, first = .publish (.any own constituents) ∧ rest = [] ∧ next = [] ∧
      s' = s.hold (.any own constituents) ∧ ∀ token ∈ constituents, token ∈ s.graph.handles) ∨
    Own s own first ∧ AnyWork s' own (next ++ rest) := by
  obtain ⟨before, constituents, hwork, hheap, hheld, hown, hlast⟩ := h
  cases before with
  | nil =>
      left
      obtain ⟨rfl, rfl⟩ := List.cons.inj hwork
      cases hstep
      exact ⟨constituents, rfl, rfl, rfl, rfl, hheld⟩
  | cons head tail =>
      right
      obtain ⟨rfl, rfl⟩ := List.cons.inj hwork
      have hfirst := hown first List.mem_cons_self
      refine ⟨hfirst, next ++ tail, constituents, by simp, ?_, ?_, ?_, ?_⟩
      · exact (hstep.grows.heap own hunpublished.exists_).trans hheap
      · exact fun token htoken => hstep.grows.handles token (hheld token htoken)
      -- What the item turns into is about the new state again.
      · have hnext : ∀ item ∈ next, Own s own item := by
          cases hstep with
          | cancelledBefore _ | allWoken | allNotified | idle _ | dependentIdle _ =>
              exact fun item hitem => absurd hitem List.not_mem_nil
          | swap _ | due _ _ _ | dependentDue _ | pushDependent =>
              intro item hitem
              rw [List.mem_singleton.mp hitem]
              first
                | exact hfirst
                | exact hfirst.1
          | drain =>
              intro item hitem
              obtain rfl : _ = own := hfirst
              rw [List.mem_singleton.mp hitem]
              exact ⟨rfl, hunpublished.waiters⟩
          | clone =>
              obtain ⟨rfl, rfl⟩ := hfirst
              intro item hitem
              cases List.mem_cons.mp hitem with
              | inl heq => exact heq ▸ rfl
              | inr hlast =>
                  rw [List.mem_singleton.mp hlast]
                  exact hunpublished.dependents
          | wake => exact absurd hfirst (List.cons_ne_nil _ _)
          | notify => exact absurd hfirst (List.cons_ne_nil _ _)
          | read =>
              intro item hitem
              rw [List.mem_singleton.mp hitem]
              exact hfirst
          | publish => exact hfirst.elim
        intro item hitem
        cases List.mem_append.mp hitem with
        | inl hnew => exact (hnext item hnew).grows hstep.grows
        | inr hold => exact (hown item (List.mem_cons_of_mem _ hold)).grows hstep.grows
      · intro signal hmem
        -- A step makes no new registrations, and `publish` stays at the end.
        have htail : .pushDependent own signal ∈ tail := by
          cases List.mem_append.mp hmem with
          | inr hold => exact hold
          | inl hnew => cases hstep <;> simp at hnew
        obtain ⟨init, hinit⟩ := hlast signal (List.mem_cons_of_mem _ htail)
        cases init with
        | nil =>
            obtain ⟨_, rfl⟩ := List.cons.inj hinit
            cases htail
        | cons _ init =>
            obtain ⟨_, rfl⟩ := List.cons.inj hinit
            exact ⟨next ++ init, by simp⟩

/-- A token that is held from now on does not contain the state. -/
theorem Unpublished.hold {own : SignalId} (h : Unpublished s own) {token : CancellationToken}
    (hnode : own ∉ token.nodes) : Unpublished (s.hold token) own where
  exists_ := h.exists_
  held other hmem := by
    cases List.mem_cons.mp hmem with
    | inl heq => exact heq ▸ hnode
    | inr hin => exact h.held other hin
  dependents := h.dependents
  waiters := h.waiters

/-- A dependent is added to a signal of a held token. -/
theorem Unpublished.add_dependent {own dependent signal : SignalId} (h : Unpublished s own)
    (hne : signal ≠ own) : Unpublished (s.addDependent dependent signal) own where
  exists_ := h.exists_
  held := h.held
  dependents := (Function.update_of_ne (Ne.symm hne) ..).trans h.dependents
  waiters := h.waiters

/-- The waiters of other signals do not matter, nor does it that there are none. -/
theorem Unpublished.with_waiters {own signal : SignalId} {waiters : List TaskId}
    (h : Unpublished s own) (hne : signal ≠ own ∨ waiters = []) :
    Unpublished (s.withWaiters signal waiters) own where
  exists_ := h.exists_
  held := h.held
  dependents := h.dependents
  waiters := by
    show Function.update s.waiters signal waiters own = []
    by_cases heq : own = signal
    · subst heq
      rw [Function.update_self]
      exact hne.resolve_left fun hne => hne rfl
    · rw [Function.update_of_ne heq]
      exact h.waiters

/-- What is the same of a graph, its waiters and its held tokens. -/
theorem Unpublished.of_same {own : SignalId} (h : Unpublished s own) (hgraph : s'.graph = s.graph)
    (hwaiters : s'.waiters = s.waiters) : Unpublished s' own := by
  obtain ⟨hlt, hheld, hdependents, hnone⟩ := h
  constructor
  · rw [hgraph]
    exact hlt
  · rw [hgraph]
    exact hheld
  · rw [hgraph]
    exact hdependents
  · rw [hwaiters]
    exact hnone

/-- A step of a thread that neither returns from `any` nor registers with the state leaves it
unpublished. -/
theorem Unpublished.work {own : SignalId} (h : Unpublished s own)
    (hstep : WorkStep s first s' next)
    (hpublish : ∀ token, first = .publish token → own ∉ token.nodes)
    (hpush : ∀ dependent signal, first = .pushDependent dependent signal → signal ≠ own) :
    Unpublished s' own := by
  cases hstep with
  | publish => exact h.hold (hpublish _ rfl)
  | pushDependent => exact h.add_dependent (hpush _ _ rfl)
  | drain => exact h.with_waiters (.inr rfl)
  | swap _ => exact ⟨h.exists_, h.held, h.dependents, h.waiters⟩
  | wake => exact h.of_same rfl rfl
  | cancelledBefore _ | clone | allWoken | notify | allNotified | read | due _ _ _ | idle _
  | dependentDue _ | dependentIdle _ => exact h

/-- A new state that nobody holds. -/
theorem Unpublished.allocate {own : SignalId} (h : Unpublished s own)
    (constituents : Option (List CancellationToken)) :
    Unpublished (s.allocate constituents) own :=
  ⟨Nat.lt_succ_of_lt h.exists_, h.held, h.dependents, h.waiters⟩

/-- `cancel` goes on with what a `cancel` may have left to do. -/
theorem WorkStep.cancels (h : WorkStep s first s' next) (hfirst : first.cancels = true) :
    ∀ item ∈ next, item.cancels = true := by
  cases h with
  | pushDependent | dependentDue _ | dependentIdle _ | publish => cases hfirst
  | cancelledBefore _ | allWoken | allNotified | idle _ =>
      exact fun item hitem => absurd hitem List.not_mem_nil
  | swap _ | drain | wake | read | due _ _ _ =>
      intro item hitem
      rw [List.mem_singleton.mp hitem]
      rfl
  | clone | notify =>
      intro item hitem
      rcases List.mem_cons.mp hitem with rfl | hlast
      · rfl
      · rw [List.mem_singleton.mp hlast]
        rfl

/-- A thread that registers or returns from `any` is one that executes `any`. -/
theorem Shape.any_of_first (h : Shape s) {thread : ThreadId} {call : Call} {rest : List Work}
    (hthread : s.threads thread = ⟨call, first :: rest⟩) (hfirst : first.cancels = false) :
    ∃ own, call = .any own ∧ Unpublished s own ∧ AnyWork s own (first :: rest) := by
  have hok := h.threads thread
  rw [hthread] at hok
  cases call with
  | cancel token =>
      have hcancels := hok first List.mem_cons_self
      rw [hfirst] at hcancels
      cases hcancels
  | any own =>
      cases hok with
      | inl hnone => exact absurd hnone (List.cons_ne_nil _ _)
      | inr hwork => exact ⟨own, rfl, hwork⟩

/-- The states of two threads that execute `any` differ, and so do the tokens they return. -/
theorem Shape.work_threads (h : Shape s) {thread : ThreadId} {call : Call} {rest : List Work}
    (hthread : s.threads thread = ⟨call, first :: rest⟩) (hstep : WorkStep s first s' next)
    {other : ThreadId} (hne : other ≠ thread) {own : SignalId}
    (hcall : (s.threads other).call = .any own) (hwork : (s.threads other).work ≠ [])
    (hown : Unpublished s own) : Unpublished s' own := by
  refine hown.work hstep ?_ ?_
  · rintro token rfl
    obtain ⟨mine, rfl, hmine, hany⟩ := h.any_of_first hthread rfl
    rcases hany.step hmine hstep with ⟨constituents, heq, _, _, _, hheld⟩ | ⟨hfalse, _⟩
    · obtain rfl := Work.publish.inj heq
      intro hnode
      rcases mem_any_nodes.mp hnode with rfl | ⟨token, htoken, hin⟩
      · refine hne (h.distinct other thread own hcall ?_ hwork ?_)
        · rw [hthread]
        · rw [hthread]
          exact List.cons_ne_nil _ _
      · exact hown.held token (hheld token htoken) hin
    · exact hfalse.elim
  · rintro dependent signal rfl
    obtain ⟨mine, rfl, hmine, hany⟩ := h.any_of_first hthread rfl
    rcases hany.step hmine hstep with ⟨_, heq, _⟩ | ⟨⟨_, token, htoken, hnode⟩, _⟩
    · cases heq
    · exact hown.ne htoken hnode

/-- What a step of a thread does to the held tokens. -/
theorem Shape.work_handles (h : Shape s) {thread : ThreadId} {call : Call} {rest : List Work}
    (hthread : s.threads thread = ⟨call, first :: rest⟩) (hstep : WorkStep s first s' next) :
    ∀ token ∈ s'.graph.handles, Built s'.graph token := by
  have hgrows := hstep.grows
  have hold : ∀ token ∈ s.graph.handles, Built s'.graph token :=
    fun token htoken => hgrows.built (h.handles token htoken)
  cases hstep with
  | publish =>
      obtain ⟨own, rfl, hown, hany⟩ := h.any_of_first hthread rfl
      obtain ⟨before, constituents, hwork, hheap, _, hitems, _⟩ := hany
      intro other hmem
      cases List.mem_cons.mp hmem with
      | inr hin => exact hold other hin
      | inl heq =>
          subst heq
          cases before with
          | nil =>
              obtain ⟨heq, _⟩ := List.cons.inj hwork
              obtain rfl := Work.publish.inj heq
              exact hgrows.built (h.heap own constituents hheap)
          | cons head tail =>
              obtain ⟨rfl, _⟩ := List.cons.inj hwork
              exact (hitems _ List.mem_cons_self).elim
  | cancelledBefore _ | swap _ | drain | clone | wake | allWoken | notify | allNotified | read
  | due _ _ _ | idle _ | pushDependent | dependentDue _ | dependentIdle _ => exact hold

/-- A step of a thread keeps the first layer. -/
theorem Shape.work (h : Shape s) {thread : ThreadId} {call : Call} {rest : List Work}
    (hthread : s.threads thread = ⟨call, first :: rest⟩) (hstep : WorkStep s first s' next) :
    Shape (s'.withThread thread ⟨call, next ++ rest⟩) := by
  have hgrows : Grows s (s'.withThread thread ⟨call, next ++ rest⟩) :=
    hstep.grows.trans (.of_graph rfl)
  have hshape : s'.graph.next = s.graph.next ∧ s'.graph.heap = s.graph.heap := by
    cases hstep <;> exact ⟨rfl, rfl⟩
  have hothers : ∀ {other}, other ≠ thread →
      (s'.withThread thread ⟨call, next ++ rest⟩).threads other = s.threads other := by
    intro other hne
    rw [State.with_thread_ne _ _ hne, hstep.threads]
  constructor
  · have hhandles := h.work_handles hthread hstep
    exact hhandles
  · intro signal constituents hheap
    have hbefore : s.graph.heap signal = some constituents :=
      (congrFun hshape.2 signal).symm.trans hheap
    exact hgrows.built (h.heap signal constituents hbefore)
  · intro signal hfresh
    have hbefore : s.graph.next ≤ signal := Nat.le_trans hgrows.next hfresh
    obtain ⟨hdependents, hwaiters⟩ := h.fresh signal hbefore
    cases hstep with
    | pushDependent =>
        refine ⟨?_, hwaiters⟩
        obtain ⟨own, rfl, hown, hany⟩ := h.any_of_first hthread rfl
        rcases hany.step hown .pushDependent with ⟨_, heq, _⟩ | ⟨⟨_, token, htoken, hnode⟩, _⟩
        · cases heq
        · have hlt := (h.handles token htoken).nodes_lt _ hnode
          exact (Function.update_of_ne (Nat.ne_of_gt (Nat.lt_of_lt_of_le hlt hbefore)) ..).trans
            hdependents
    | @drain drained =>
        refine ⟨hdependents, ?_⟩
        show Function.update s.waiters drained [] signal = []
        by_cases heq : signal = drained
        · rw [heq, Function.update_self]
        · rw [Function.update_of_ne heq]
          exact hwaiters
    | cancelledBefore _ | swap _ | clone | wake | allWoken | notify | allNotified | read
    | due _ _ _ | idle _ | dependentDue _ | dependentIdle _ | publish =>
        exact ⟨hdependents, hwaiters⟩
  · intro other
    by_cases heq : other = thread
    · subst heq
      rw [State.with_thread_self]
      have hok := h.threads other
      rw [hthread] at hok
      cases call with
      | cancel token =>
          intro item hitem
          cases List.mem_append.mp hitem with
          | inl hnew => exact hstep.cancels (hok first List.mem_cons_self) item hnew
          | inr hin => exact hok item (List.mem_cons_of_mem _ hin)
      | any own =>
          cases hok with
          | inl hnone => exact absurd hnone (List.cons_ne_nil _ _)
          | inr hwork =>
              obtain ⟨hown, hany⟩ := hwork
              rcases hany.step hown hstep with ⟨_, _, rfl, rfl, _⟩ | ⟨hfirst, hnext⟩
              · exact .inl rfl
              · right
                have hkept : Unpublished s' own := by
                  refine hown.work hstep ?_ ?_
                  · rintro token rfl
                    exact hfirst.elim
                  · rintro dependent signal rfl
                    obtain ⟨_, token, htoken, hnode⟩ := hfirst
                    exact hown.ne htoken hnode
                exact ⟨hkept.of_same rfl rfl, hnext.grows (.of_graph rfl) hkept.exists_⟩
    · rw [hothers heq]
      refine (h.threads other).grows hgrows ?_
      intro own hcall hwork hown
      exact (h.work_threads hthread hstep heq hcall hwork hown).of_same rfl rfl
  · intro one two own hone htwo hworkOne hworkTwo
    -- the call of the thread is the same, and it had work before
    have hbefore : ∀ {other},
        ((s'.withThread thread ⟨call, next ++ rest⟩).threads other).call = .any own →
        ((s'.withThread thread ⟨call, next ++ rest⟩).threads other).work ≠ [] →
        (s.threads other).call = .any own ∧ (s.threads other).work ≠ [] := by
      intro other hcall hwork
      by_cases heq : other = thread
      · subst heq
        rw [State.with_thread_self] at hcall
        rw [hthread]
        exact ⟨hcall, List.cons_ne_nil _ _⟩
      · rw [hothers heq] at hcall hwork
        exact ⟨hcall, hwork⟩
    exact h.distinct one two own (hbefore hone hworkOne).1 (hbefore htwo hworkTwo).1
      (hbefore hone hworkOne).2 (hbefore htwo hworkTwo).2
  · intro task
    have htask : TaskOk s (s'.tasks task) := by
      have hok := h.tasks task
      cases hstep with
      | @wake woken _ =>
          by_cases heq : task = woken
          · subst heq
            show TaskOk s ((s.wakeTask task).tasks task)
            unfold State.wakeTask
            rw [State.with_task_self]
            exact hok
          · show TaskOk s ((s.wakeTask woken).tasks task)
            unfold State.wakeTask
            rw [State.with_task_ne _ _ heq]
            exact hok
      | cancelledBefore _ | swap _ | drain | clone | allWoken | notify | allNotified | read
      | due _ _ _ | idle _ | pushDependent | dependentDue _ | dependentIdle _ | publish =>
          exact hok
    exact htask.grows hgrows

/-- The signals of a task that waits are signals of a held token. -/
theorem Shape.task_signals (h : Shape s) {task : TaskId} {signal : SignalId}
    (hmem : signal ∈ (s.tasks task).phase.signals) :
    ∃ token ∈ s.graph.handles, signal ∈ token.nodes := by
  cases h.tasks task with
  | inl habsent =>
      rw [habsent] at hmem
      cases hmem
  | inr hwaits =>
      exact ⟨_, hwaits.1,
        (h.handles _ hwaits.1).signals_subset signal (hwaits.2 signal hmem)⟩

/-- A step of a task keeps the first layer. -/
theorem Shape.task (h : Shape s) {task : TaskId} (hstep : TaskStep s task s') : Shape s' := by
  have hgraph := hstep.graph
  have hgrows : Grows s s' := .of_graph hgraph
  -- only a push changes waiters, at a signal of a held token
  have hwaiters : ∀ signal, (∀ token ∈ s.graph.handles, signal ∉ token.nodes) →
      s'.waiters signal = s.waiters signal := by
    intro signal hnot
    cases hstep with
    | @push pushed rest hphase =>
        have hmem : pushed ∈ (s.tasks task).phase.signals := by
          rw [hphase]
          exact List.mem_cons_self
        obtain ⟨token, htoken, hnode⟩ := h.task_signals hmem
        have hne : signal ≠ pushed := fun heq => hnot token htoken (heq ▸ hnode)
        exact Function.update_of_ne hne ..
    | poll _ | cancelled _ _ | live _ _ | wakeBefore _ _ | unset _ _ | wakeAfter _ _
    | registered _ _ | recheck _ | cancelledMeanwhile _ _ | pending _ _ => rfl
  constructor
  · rw [hgraph]
    exact h.handles
  · rw [hgraph]
    exact h.heap
  · intro signal hfresh
    rw [hgraph] at hfresh ⊢
    refine ⟨(h.fresh signal hfresh).1, ?_⟩
    rw [hwaiters signal]
    · exact (h.fresh signal hfresh).2
    · intro token htoken hnode
      exact absurd ((h.handles token htoken).nodes_lt signal hnode) (Nat.not_lt.mpr hfresh)
  · intro thread
    rw [hstep.threads]
    refine (h.threads thread).grows hgrows ?_
    intro own _ _ hown
    constructor
    · rw [hgraph]
      exact hown.exists_
    · rw [hgraph]
      exact hown.held
    · rw [hgraph]
      exact hown.dependents
    · rw [hwaiters own hown.held]
      exact hown.waiters
  · rw [hstep.threads]
    exact h.distinct
  · intro other
    by_cases heq : other = task
    · subst heq
      have hok := h.tasks other
      -- a task that takes a step is not absent
      have hwaits : (s.tasks other).token ∈ s.graph.handles ∧
          ∀ signal ∈ (s.tasks other).phase.signals, signal ∈ (s.tasks other).token.signals := by
        cases hok with
        | inr hwaits => exact hwaits
        | inl habsent =>
            cases hstep with
            | poll hphase =>
                rw [habsent] at hphase
                rcases hphase with hphase | hphase <;> cases hphase
            | cancelled hphase _ | live hphase _ | wakeBefore hphase _ | unset hphase _
            | push hphase | wakeAfter hphase _ | registered hphase _ | recheck hphase
            | cancelledMeanwhile hphase _ | pending hphase _ =>
                rw [habsent] at hphase
                cases hphase
      right
      rw [hgraph]
      cases hstep with
      | poll _ | cancelled _ _ | recheck _ | cancelledMeanwhile _ _ | pending _ _ =>
          rw [State.with_task_self]
          exact ⟨hwaits.1, fun signal hmem => absurd hmem List.not_mem_nil⟩
      | live _ _ =>
          rw [State.with_task_self]
          exact ⟨hwaits.1, fun signal hmem => hmem⟩
      | wakeBefore hphase _ | wakeAfter hphase _ | registered hphase _ =>
          rw [State.with_task_self]
          rw [hphase] at hwaits
          exact ⟨hwaits.1, fun signal hmem => hwaits.2 signal (List.mem_cons_of_mem _ hmem)⟩
      | unset hphase _ | push hphase =>
          rw [State.with_task_self]
          rw [hphase] at hwaits
          exact hwaits
    · rw [hstep.others heq]
      exact (h.tasks other).grows hgrows

/-- A new root token keeps the first layer. -/
theorem Shape.default (hshape : Shape s) :
    Shape ((s.allocate none).hold (.single s.graph.next)) := by
  have hgrows : Grows s ((s.allocate none).hold (.single s.graph.next)) := Step.default.grows
  constructor
  · intro token hmem
    cases List.mem_cons.mp hmem with
    | inl heq =>
        rw [heq]
        exact .single (Nat.lt_succ_self _) (Function.update_self ..)
    | inr hin => exact hgrows.built (hshape.handles token hin)
  · intro signal constituents hheap
    have hheap' : Function.update s.graph.heap s.graph.next none signal =
        some constituents := hheap
    by_cases heq : signal = s.graph.next
    · rw [heq, Function.update_self] at hheap'
      cases hheap'
    · rw [Function.update_of_ne heq] at hheap'
      exact hgrows.built (hshape.heap signal constituents hheap')
  · intro signal hfresh
    exact hshape.fresh signal (Nat.le_of_succ_le hfresh)
  · intro thread
    refine (hshape.threads thread).grows hgrows ?_
    intro own _ _ hown
    refine (hown.allocate none).hold ?_
    intro hnode
    exact absurd hown.exists_ (Nat.not_lt.mpr (Nat.le_of_eq (List.mem_singleton.mp hnode).symm))
  · exact hshape.distinct
  · exact fun task => (hshape.tasks task).grows hgrows

/-- A new composite token keeps the first layer. -/
theorem Shape.composite (hshape : Shape s) {members : List CancellationToken}
    (hmembers : ∀ member ∈ members, member ∈ s.graph.handles) :
    Shape (s.hold (compositeToken members)) := by
  have hgrows : Grows s (s.hold (compositeToken members)) := (Step.composite hmembers).grows
  constructor
  · intro token hmem
    cases List.mem_cons.mp hmem with
    | inl heq =>
        rw [heq]
        exact .composite fun member hmember =>
          hgrows.built (hshape.handles member (hmembers member hmember))
    | inr hin => exact hgrows.built (hshape.handles token hin)
  · exact fun signal constituents hheap =>
      hgrows.built (hshape.heap signal constituents hheap)
  · exact hshape.fresh
  · intro thread
    refine (hshape.threads thread).grows hgrows ?_
    intro own _ _ hown
    refine hown.hold ?_
    intro hnode
    obtain ⟨member, hmember, hin⟩ := mem_composite_nodes.mp hnode
    exact hown.held member (hmembers member hmember) hin
  · exact hshape.distinct
  · exact fun task => (hshape.tasks task).grows hgrows

/-- A call to `cancel` keeps the first layer. -/
theorem Shape.start_cancel (hshape : Shape s) {thread : ThreadId} {token : CancellationToken} :
    Shape (s.withThread thread ⟨.cancel token, token.signals.map Work.cancelSignal⟩) := by
  have hgrows : Grows s
      (s.withThread thread ⟨.cancel token, token.signals.map Work.cancelSignal⟩) := .of_graph rfl
  constructor
  · exact hshape.handles
  · exact hshape.heap
  · exact hshape.fresh
  · intro other
    by_cases heq : other = thread
    · subst heq
      rw [State.with_thread_self]
      intro item hitem
      obtain ⟨signal, _, rfl⟩ := List.mem_map.mp hitem
      rfl
    · rw [State.with_thread_ne _ _ heq]
      exact (hshape.threads other).grows hgrows fun own _ _ hown => hown.of_same rfl rfl
  · intro one two own hone htwo
    have hne : ∀ {other}, ((s.withThread thread
        ⟨.cancel token, token.signals.map Work.cancelSignal⟩).threads other).call =
          .any own → other ≠ thread := by
      rintro other hcall rfl
      rw [State.with_thread_self] at hcall
      cases hcall
    have hneOne := hne hone
    have hneTwo := hne htwo
    rw [State.with_thread_ne _ _ hneOne] at hone ⊢
    rw [State.with_thread_ne _ _ hneTwo] at htwo ⊢
    exact hshape.distinct one two own hone htwo
  · exact fun task => (hshape.tasks task).grows hgrows

/-- A call to `any` keeps the first layer. -/
theorem Shape.start_any (hshape : Shape s) {thread : ThreadId}
    {constituents : List CancellationToken} (hidle : (s.threads thread).work = [])
    (hheld : ∀ token ∈ constituents, token ∈ s.graph.handles) :
    Shape ((s.allocate (some constituents)).withThread thread
      ⟨.any s.graph.next,
        (constituents.flatMap CancellationToken.signals).map (.pushDependent s.graph.next) ++
          [.sourceChanged s.graph.next, .publish (.any s.graph.next constituents)]⟩) := by
  have hgrows := (Step.startAny hidle hheld).grows
  have hbuilt : ∀ token ∈ constituents, Built s.graph token :=
    fun token htoken => hshape.handles token (hheld token htoken)
  have hheapOwn : Function.update s.graph.heap s.graph.next (some constituents) s.graph.next =
      some constituents := Function.update_self ..
  obtain ⟨hdependents, hwaiters⟩ := hshape.fresh s.graph.next (Nat.le_refl _)
  constructor
  · exact fun token hmem => hgrows.built (hshape.handles token hmem)
  · intro signal found hheap
    have hheap' : Function.update s.graph.heap s.graph.next (some constituents) signal =
        some found := hheap
    by_cases heq : signal = s.graph.next
    · subst heq
      obtain rfl := Option.some.inj (hheapOwn.symm.trans hheap')
      -- The constituents are older than the new state and were built before it.
      exact .any (Nat.lt_succ_self _) hheapOwn
        (fun token htoken => hgrows.built (hbuilt token htoken))
        fun token htoken => (hbuilt token htoken).nodes_lt
    · rw [Function.update_of_ne heq] at hheap'
      exact hgrows.built (hshape.heap signal found hheap')
  · exact fun signal hfresh => hshape.fresh signal (Nat.le_of_succ_le hfresh)
  · intro other
    by_cases heq : other = thread
    · subst heq
      rw [State.with_thread_self]
      right
      refine ⟨⟨Nat.lt_succ_self _, ?_, hdependents, hwaiters⟩, _, constituents,
        (List.append_assoc _ [_] [_]).symm, hheapOwn, hheld, ?_, ?_⟩
      -- No token can know the new state before `any` returns.
      · intro token htoken hnode
        exact absurd ((hshape.handles token htoken).nodes_lt _ hnode) (Nat.lt_irrefl _)
      · intro item hitem
        cases List.mem_append.mp hitem with
        | inr hlast =>
            rw [List.mem_singleton.mp hlast]
            rfl
        | inl hpush =>
            obtain ⟨signal, hsignal, rfl⟩ := List.mem_map.mp hpush
            obtain ⟨token, htoken, hin⟩ := List.mem_flatMap.mp hsignal
            exact ⟨rfl, token, hheld token htoken,
              (hbuilt token htoken).signals_subset signal hin⟩
      · exact fun _ _ => ⟨_, rfl⟩
    · rw [State.with_thread_ne _ _ heq]
      refine (hshape.threads other).grows hgrows ?_
      intro own _ _ hown
      exact (hown.allocate (some constituents)).of_same rfl rfl
  · -- no other thread builds the new state
    have hnew : ∀ {other}, other ≠ thread → (s.threads other).call = .any s.graph.next →
        (s.threads other).work = [] := by
      intro other _ hcall
      have hok := hshape.threads other
      unfold ThreadOk at hok
      rw [hcall] at hok
      cases hok with
      | inl hnone => exact hnone
      | inr hwork => exact absurd hwork.1.exists_ (Nat.lt_irrefl _)
    intro one two own hone htwo hworkOne hworkTwo
    by_cases heqOne : one = thread
    · by_cases heqTwo : two = thread
      · exact heqOne.trans heqTwo.symm
      · subst heqOne
        rw [State.with_thread_self] at hone
        obtain rfl := Call.any.inj hone
        rw [State.with_thread_ne _ _ heqTwo] at htwo hworkTwo
        exact absurd (hnew heqTwo htwo) hworkTwo
    · by_cases heqTwo : two = thread
      · subst heqTwo
        rw [State.with_thread_self] at htwo
        obtain rfl := Call.any.inj htwo
        rw [State.with_thread_ne _ _ heqOne] at hone hworkOne
        exact absurd (hnew heqOne hone) hworkOne
      · rw [State.with_thread_ne _ _ heqOne] at hone hworkOne
        rw [State.with_thread_ne _ _ heqTwo] at htwo hworkTwo
        exact hshape.distinct one two own hone htwo hworkOne hworkTwo
  · exact fun task => (hshape.tasks task).grows hgrows

/-- A new task keeps the first layer. -/
theorem Shape.spawn (hshape : Shape s) {task : TaskId} {token : CancellationToken}
    (htoken : token ∈ s.graph.handles) :
    Shape (s.withTask task { s.tasks task with token := token, phase := .fresh }) := by
  have hgrows : Grows s (s.withTask task { s.tasks task with token := token, phase := .fresh }) :=
    .of_graph rfl
  constructor
  · exact hshape.handles
  · exact hshape.heap
  · exact hshape.fresh
  · exact fun thread =>
      (hshape.threads thread).grows hgrows fun own _ _ hown => hown.of_same rfl rfl
  · exact hshape.distinct
  · intro other
    by_cases heq : other = task
    · subst heq
      rw [State.with_task_self]
      exact .inr ⟨htoken, fun signal hmem => absurd hmem List.not_mem_nil⟩
    · rw [State.with_task_ne _ _ heq]
      exact (hshape.tasks other).grows hgrows

/-- The first layer. -/
theorem Step.shape (h : Step s s') (hshape : Shape s) : Shape s' := by
  cases h with
  | default => exact hshape.default
  | composite hmembers => exact hshape.composite hmembers
  | startCancel _ _ => exact hshape.start_cancel
  | startAny hidle hheld => exact hshape.start_any hidle hheld
  | work hthread hwork => exact hshape.work hthread hwork
  | spawn _ htoken => exact hshape.spawn htoken
  | task htask => exact hshape.task htask

/-- The first layer at the start. -/
theorem initial_shape : Shape .initial where
  handles _ h := absurd h List.not_mem_nil
  heap _ _ h := by cases h
  fresh _ _ := ⟨rfl, rfl⟩
  threads _ := .inl rfl
  distinct _ _ _ _ _ h := absurd rfl h
  tasks _ := .inl rfl

end EmbeddingServer.TokenRace
