import EmbeddingServer.Core.TokenShape

/-!
# States that lag behind

Between the swap of a flag and the notification of the dependents, the flag of an `any` state can
lag behind its constituents. The second layer of invariants says that such a state is on the list
of some thread. It needs the first: a state that is registered is looked at once more before `any`
returns.
-/

namespace EmbeddingServer.TokenRace

open TokenGraph

variable {s s' : State} {first : Work} {next : List Work}

/-- A constituent of the `any` state has all its signals set and the own flag is not set yet. -/
def Behind (s : State) (dependent : SignalId) : Prop :=
  s.graph.flags dependent = false ∧ ∃ constituents, s.graph.heap dependent = some constituents ∧
    ∃ token ∈ constituents, s.graph.Flagged token

/-- What a thread has to do leads to a look at the constituents of the state. -/
def Obliged (s : State) (dependent : SignalId) : Work → Prop
  | .cancelSignal signal | .sourceChanged signal => signal = dependent
  | .drainWaiters signal | .cloneDependents signal _ => dependent ∈ s.graph.dependents signal
  | .notify dependents => dependent ∈ dependents
  | .reading read begun => read = dependent ∧
      ∃ constituents, s.graph.heap dependent = some constituents ∧
        ∃ token ∈ constituents, ∀ signal ∈ token.signals, begun signal = true
  | .wake _ | .pushDependent _ _ | .checkDependent _ _ | .publish _ => False

/-- The second layer: an `any` state is listed with all signals it depends on or will be, and a
state that lags behind is somebody's obligation. -/
structure Covered (s : State) : Prop where
  listed : ∀ dependent constituents, s.graph.heap dependent = some constituents →
    ∀ token ∈ constituents, ∀ signal ∈ token.signals,
      dependent ∈ s.graph.dependents signal ∨
        ∃ thread, .pushDependent dependent signal ∈ (s.threads thread).work
  behind : ∀ dependent, Behind s dependent →
    ∃ thread, ∃ item ∈ (s.threads thread).work, Obliged s dependent item

/-- An obligation stays one. -/
theorem Obliged.grows {dependent : SignalId} {item : Work} (hgrows : Grows s s')
    (hlt : dependent < s.graph.next) (h : Obliged s dependent item) :
    Obliged s' dependent item := by
  cases item with
  | drainWaiters signal => exact hgrows.dependents signal dependent h
  | cloneDependents signal _ => exact hgrows.dependents signal dependent h
  | reading read begun =>
      obtain ⟨hread, constituents, hheap, hbegun⟩ := h
      exact ⟨hread, constituents, (hgrows.heap dependent hlt).trans hheap, hbegun⟩
  | cancelSignal _ | sourceChanged _ | notify _ => exact h
  | wake _ | pushDependent _ _ | checkDependent _ _ | publish _ => exact h.elim

/-- A state that lags behind exists. -/
theorem Behind.lt {dependent : SignalId} (h : Behind s dependent) (hshape : Shape s) :
    dependent < s.graph.next := by
  obtain ⟨_, constituents, hheap, _⟩ := h
  exact (hshape.built_heap hheap).1

/-- A thread that meets its obligation hands it on, until the flag is set. -/
theorem Obliged.step {dependent : SignalId} (h : Obliged s dependent first) (hshape : Shape s)
    (hbehind : Behind s dependent) (hafter : Behind s' dependent)
    (hstep : WorkStep s first s' next) : ∃ item ∈ next, Obliged s' dependent item := by
  cases hstep with
  | cancelledBefore hflag =>
      obtain rfl : _ = dependent := h
      exact Bool.noConfusion (hflag.symm.trans hbehind.1)
  | @swap signal _ =>
      obtain rfl : signal = dependent := h
      have hset : (s.setFlag signal).graph.flags signal = true := Function.update_self ..
      exact Bool.noConfusion (hset.symm.trans hafter.1)
  | drain => exact ⟨_, List.mem_cons_self, h⟩
  | clone => exact ⟨_, List.mem_cons_of_mem _ List.mem_cons_self, h⟩
  | notify =>
      cases List.mem_cons.mp h with
      | inl heq => exact ⟨_, List.mem_cons_self, heq.symm⟩
      | inr hrest => exact ⟨_, List.mem_cons_of_mem _ List.mem_cons_self, hrest⟩
  | allNotified => cases h
  | read =>
      obtain rfl : _ = dependent := h
      obtain ⟨_, constituents, hheap, token, htoken, hflagged⟩ := hbehind
      exact ⟨_, List.mem_cons_self, rfl, constituents, hheap, token, htoken, hflagged⟩
  | due _ _ _ =>
      obtain rfl : _ = dependent := h.1
      exact ⟨_, List.mem_cons_self, rfl⟩
  | idle hidle =>
      obtain ⟨rfl, constituents, hheap, token, htoken, hbegun⟩ := h
      -- a constituent that had all its signals set when the reading began was found cancelled
      have hbuilt : Built s.graph token := (hshape.built_heap hheap).2 token htoken
      have hcancelled : ({ s.graph with flags := _ } : TokenGraph).isCancelled token = true :=
        hbuilt.cancelled_of_flagged hbegun
      have hnot := hidle constituents hheap token htoken
      exact Bool.noConfusion (hcancelled.symm.trans hnot)
  | wake | allWoken | pushDependent | dependentDue _ | dependentIdle _ | publish => exact h.elim

/-- A registration that is not finished is followed by a look at the constituents. -/
theorem Shape.source_changed_of_push (h : Shape s) {thread : ThreadId} {dependent signal : SignalId}
    (hpush : .pushDependent dependent signal ∈ (s.threads thread).work) :
    .sourceChanged dependent ∈ (s.threads thread).work := by
  have hok := h.threads thread
  unfold ThreadOk at hok
  cases hcall : (s.threads thread).call with
  | cancel token =>
      rw [hcall] at hok
      cases hok _ hpush
  | any own =>
      rw [hcall] at hok
      cases hok with
      | inl hnone =>
          rw [hnone] at hpush
          cases hpush
      | inr hwork =>
          obtain ⟨_, before, constituents, hsplit, _, _, hown, hlast⟩ := hwork
          rw [hsplit] at hpush ⊢
          have hbefore : .pushDependent dependent signal ∈ before := by
            cases List.mem_append.mp hpush with
            | inl hin => exact hin
            | inr hlast => cases List.mem_singleton.mp hlast
          obtain rfl : dependent = own := (hown _ hbefore).1
          obtain ⟨init, rfl⟩ := hlast signal hbefore
          simp

/-- Steps that set no flag and keep the work of the threads. A new `any` state comes with a thread
that will register it and look at its constituents. -/
theorem Covered.keep (h : Covered s) (hshape : Shape s) (hgrows : Grows s s')
    (hflags : s'.graph.flags = s.graph.flags)
    (hheap : ∀ dependent constituents, s'.graph.heap dependent = some constituents →
      s.graph.heap dependent = some constituents ∨
        ∃ thread, .sourceChanged dependent ∈ (s'.threads thread).work ∧
          ∀ token ∈ constituents, ∀ signal ∈ token.signals,
            .pushDependent dependent signal ∈ (s'.threads thread).work)
    (hwork : ∀ thread, ∀ item ∈ (s.threads thread).work, item ∈ (s'.threads thread).work) :
    Covered s' where
  listed dependent constituents hfound token htoken signal hsignal := by
    cases hheap dependent constituents hfound with
    | inr hnew =>
        obtain ⟨thread, _, hpush⟩ := hnew
        exact .inr ⟨thread, hpush token htoken signal hsignal⟩
    | inl hold =>
        cases h.listed dependent constituents hold token htoken signal hsignal with
        | inl hlisted => exact .inl (hgrows.dependents signal dependent hlisted)
        | inr hpush =>
            obtain ⟨thread, hin⟩ := hpush
            exact .inr ⟨thread, hwork thread _ hin⟩
  behind dependent hbehind := by
    obtain ⟨hflag, constituents, hfound, token, htoken, hflagged⟩ := hbehind
    cases hheap dependent constituents hfound with
    | inr hnew =>
        obtain ⟨thread, hlook, _⟩ := hnew
        exact ⟨thread, _, hlook, rfl⟩
    | inl hold =>
        have hbefore : Behind s dependent := by
          refine ⟨(congrFun hflags dependent).symm.trans hflag, constituents, hold, token, htoken,
            ?_⟩
          intro signal hsignal
          exact (congrFun hflags signal).symm.trans (hflagged signal hsignal)
        obtain ⟨thread, item, hitem, hobliged⟩ := h.behind dependent hbefore
        exact ⟨thread, item, hwork thread item hitem,
          hobliged.grows hgrows (hbefore.lt hshape)⟩

/-- What a step of a thread leaves of its work. -/
theorem mem_after_work {thread other : ThreadId} {call : Call} {rest : List Work} {item : Work}
    (hthread : s.threads thread = ⟨call, first :: rest⟩) (hthreads : s'.threads = s.threads)
    (hitem : item ∈ (s.threads other).work) (hne : other ≠ thread ∨ item ≠ first) :
    item ∈ ((s'.withThread thread ⟨call, next ++ rest⟩).threads other).work := by
  by_cases heq : other = thread
  · subst heq
    rw [State.with_thread_self]
    rw [hthread] at hitem
    have hfirst : item ≠ first := hne.resolve_left fun hne => hne rfl
    exact List.mem_append_right _ ((List.mem_cons.mp hitem).resolve_left hfirst)
  · rw [State.with_thread_ne _ _ heq, hthreads]
    exact hitem

/-- The work that a step adds. -/
theorem mem_new_work {thread : ThreadId} {call : Call} {rest : List Work} {item : Work}
    (hitem : item ∈ next) :
    item ∈ ((s'.withThread thread ⟨call, next ++ rest⟩).threads thread).work := by
  rw [State.with_thread_self]
  exact List.mem_append_left _ hitem

/-- A swap that makes a state lag behind obliges the thread that swapped, or the registration of
the state is not finished. -/
theorem Covered.swap (h : Covered s) (hshape : Shape s) {thread : ThreadId} {call : Call}
    {rest : List Work} {signal dependent : SignalId}
    (hthread : s.threads thread = ⟨call, .cancelSignal signal :: rest⟩)
    (hbefore : ¬ Behind s dependent) (hafter : Behind (s.setFlag signal) dependent) :
    ∃ other, ∃ item ∈ (((s.setFlag signal).withThread thread
      ⟨call, [.drainWaiters signal] ++ rest⟩).threads other).work,
      Obliged (s.setFlag signal) dependent item := by
  obtain ⟨hflag, constituents, hheap, token, htoken, hflagged⟩ := hafter
  have hunset : s.graph.flags dependent = false := by
    cases hvalue : s.graph.flags dependent with
    | false => rfl
    | true =>
        have hset := (s.set_flag_grows signal).flags dependent hvalue
        exact Bool.noConfusion (hset.symm.trans hflag)
  have hsignal : signal ∈ token.signals := by
    by_cases hmem : signal ∈ token.signals
    · exact hmem
    · refine absurd ⟨hunset, constituents, hheap, token, htoken, ?_⟩ hbefore
      intro other hother
      have hne : other ≠ signal := fun heq => hmem (heq ▸ hother)
      exact (Function.update_of_ne hne ..).symm.trans (hflagged other hother)
  cases h.listed dependent constituents hheap token htoken signal hsignal with
  | inl hlisted => exact ⟨thread, _, mem_new_work List.mem_cons_self, hlisted⟩
  | inr hpush =>
      obtain ⟨other, hin⟩ := hpush
      have hlook := hshape.source_changed_of_push hin
      refine ⟨other, _, mem_after_work hthread rfl hlook (.inr ?_), rfl⟩
      intro heq
      cases heq

/-- The second layer. -/
theorem Step.covered (h : Step s s') (hshape : Shape s) (hcovered : Covered s) : Covered s' := by
  have hgrows := h.grows
  cases h with
  | default =>
      refine hcovered.keep hshape hgrows rfl ?_ fun _ _ hitem => hitem
      intro dependent constituents hheap
      have hheap' : Function.update s.graph.heap s.graph.next none dependent =
          some constituents := hheap
      -- The new state has no source: it is in no one's heap.
      by_cases heq : dependent = s.graph.next
      · rw [heq, Function.update_self] at hheap'
        cases hheap'
      · rw [Function.update_of_ne heq] at hheap'
        exact .inl hheap'
  | composite _ | spawn _ _ =>
      exact hcovered.keep hshape hgrows rfl (fun _ _ hheap => .inl hheap) fun _ _ hitem => hitem
  | task htask =>
      refine hcovered.keep hshape hgrows (by rw [htask.graph]) ?_ ?_
      · intro dependent constituents hheap
        rw [htask.graph] at hheap
        exact .inl hheap
      · intro thread item hitem
        rw [htask.threads]
        exact hitem
  | @startCancel thread _ hidle _ =>
      refine hcovered.keep hshape hgrows rfl (fun _ _ hheap => .inl hheap) ?_
      intro other item hitem
      have hne : other ≠ thread := by
        rintro rfl
        rw [hidle] at hitem
        cases hitem
      rw [State.with_thread_ne _ _ hne]
      exact hitem
  | @startAny thread constituents hidle hheld =>
      refine hcovered.keep hshape hgrows rfl ?_ ?_
      · intro dependent found hheap
        have hheap' : Function.update s.graph.heap s.graph.next (some constituents) dependent =
            some found := hheap
        by_cases heq : dependent = s.graph.next
        -- The thread that calls `any` still has every source to register with.
        · subst heq
          rw [Function.update_self] at hheap'
          obtain rfl := Option.some.inj hheap'
          right
          refine ⟨thread, ?_, ?_⟩
          · rw [State.with_thread_self]
            simp
          · intro token htoken signal hsignal
            rw [State.with_thread_self]
            exact List.mem_append_left _
              (List.mem_map_of_mem (List.mem_flatMap.mpr ⟨token, htoken, hsignal⟩))
        · rw [Function.update_of_ne heq] at hheap'
          exact .inl hheap'
      · intro other item hitem
        have hne : other ≠ thread := by
          rintro rfl
          rw [hidle] at hitem
          cases hitem
        rw [State.with_thread_ne _ _ hne]
        exact hitem
  | @work after thread call first rest next hthread hwork =>
      have hthreads := hwork.threads
      have hheap : after.graph.heap = s.graph.heap := by
        cases hwork <;> rfl
      constructor
      · intro dependent constituents hfound token htoken signal hsignal
        have hbefore : s.graph.heap dependent = some constituents :=
          (congrFun hheap dependent).symm.trans hfound
        cases hcovered.listed dependent constituents hbefore token htoken signal hsignal with
        | inl hlisted => exact .inl (hgrows.dependents signal dependent hlisted)
        | inr hpush =>
            obtain ⟨other, hin⟩ := hpush
            -- The item that stood for the registration may be the one done in this step.
            by_cases hnew : other = thread ∧ Work.pushDependent dependent signal = first
            · obtain ⟨rfl, rfl⟩ := hnew
              cases hwork
              exact .inl ((s.mem_add_dependent).mpr (.inr ⟨rfl, rfl⟩))
            · refine .inr ⟨other, mem_after_work hthread hthreads hin ?_⟩
              by_cases heq : other = thread
              · exact .inr fun hfirst => hnew ⟨heq, hfirst⟩
              · exact .inl heq
      · intro dependent hafter
        have hbehind : Behind after dependent := hafter
        by_cases hbefore : Behind s dependent
        · obtain ⟨other, item, hitem, hobliged⟩ := hcovered.behind dependent hbefore
          -- Who was obliged before still is, or does its work now and leaves the rest of it behind.
          by_cases hfirst : other = thread ∧ item = first
          · obtain ⟨rfl, rfl⟩ := hfirst
            obtain ⟨new, hnew, hobligedNew⟩ :=
              hobliged.step hshape hbefore hbehind hwork
            exact ⟨other, new, mem_new_work hnew, hobligedNew⟩
          · refine ⟨other, item, mem_after_work hthread hthreads hitem ?_,
              hobliged.grows hgrows (hbefore.lt hshape)⟩
            by_cases heq : other = thread
            · exact .inr fun heqItem => hfirst ⟨heq, heqItem⟩
            · exact .inl heq
        -- Only a swap of a flag makes someone fall behind.
        · cases hwork with
          | swap _ => exact hcovered.swap hshape hthread hbefore hbehind
          | cancelledBefore _ | drain | clone | wake | allWoken | notify | allNotified | read
          | due _ _ _ | idle _ | pushDependent | dependentDue _ | dependentIdle _ | publish =>
              exact absurd hbehind hbefore

/-- The second layer at the start. -/
theorem initial_covered : Covered .initial where
  listed _ _ h := by cases h
  behind _ h := by
    obtain ⟨_, _, hheap, _⟩ := h
    cases hheap

end EmbeddingServer.TokenRace
