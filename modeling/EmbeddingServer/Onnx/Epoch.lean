import EmbeddingServer.Lib.Transition
import Mathlib.Algebra.Ring.Nat
import Mathlib.Data.List.Nodup
import Mathlib.Logic.Function.Basic

/-!
# The epoch of the engine

`OnnxEmbeddingEngine::load` reserves a transition under the lock, builds its candidate without the
lock, and publishes it under the lock if no other transition was reserved in between; `unload`
reserves and clears in one critical section. Any number of calls run at once, and each critical
section is one step. What a call does before its first critical section nobody can see, so a call
starts with it.

The epoch is a wrapping counter. `State.reservations` is a ghost: the calls that have reserved a
transition, the last one first. As long as there are fewer than `2 ^ 64` of them the epoch of a
call tells its place in this list.
-/

namespace EmbeddingServer.Epoch

variable {Model : Type}

/-! ## The engine -/

/-- `EngineState`. -/
structure EngineState (Model : Type) where
  epoch : BitVec 64
  loaded : Option Model

/-- `EngineState::reserve_transition`: the new epoch. -/
def EngineState.reserveTransition (state : EngineState Model) : BitVec 64 × EngineState Model :=
  let epoch := state.epoch + 1
  (epoch, { state with epoch := epoch })

/-- `EngineState::accepts`. -/
def EngineState.accepts (state : EngineState Model) (epoch : BitVec 64) : Bool :=
  state.epoch == epoch

/-- Program points of a call. -/
inductive Call (Model : Type) where
  | idle
  /-- `load_candidate`, outside the lock. -/
  | loading (epoch : BitVec 64)
  /-- The candidate is built. -/
  | ready (epoch : BitVec 64) (candidate : Model)
  /-- `load` has returned `Ok`. -/
  | published (model : Model)
  /-- `unload` has returned. -/
  | unloaded
  /-- The call has returned an error. -/
  | failed

/-- The call has returned. -/
def Call.returned : Call Model → Bool
  | .idle | .loading _ | .ready _ _ => false
  | .published _ | .unloaded | .failed => true

/-- The epoch that a running `load` has reserved. -/
def Call.epoch : Call Model → Option (BitVec 64)
  | .loading epoch | .ready epoch _ => some epoch
  | _ => none

/-- The engine and its calls. -/
structure State (Model : Type) where
  engine : EngineState Model
  calls : Nat → Call Model
  /-- Ghost: the calls that have reserved a transition, the last one first. -/
  reservations : List Nat

/-- `OnnxEmbeddingEngine::new`, without calls. -/
def initial (Model : Type) : State Model where
  engine := ⟨0, none⟩
  calls _ := .idle
  reservations := []

/-- A call goes on, and the engine is as given. -/
def State.update (s : State Model) (call : Nat) (next : Call Model)
    (engine : EngineState Model) : State Model where
  engine := engine
  calls := Function.update s.calls call next
  reservations := s.reservations

/-- A call reserves a transition. -/
def State.reserve (s : State Model) (call : Nat) (next : Call Model)
    (engine : EngineState Model) : State Model where
  engine := engine
  calls := Function.update s.calls call next
  reservations := call :: s.reservations

@[simp] theorem State.update_calls (s : State Model) (call : Nat) (next : Call Model)
    (engine : EngineState Model) :
    (s.update call next engine).calls = Function.update s.calls call next := rfl

@[simp] theorem State.reserve_calls (s : State Model) (call : Nat) (next : Call Model)
    (engine : EngineState Model) :
    (s.reserve call next engine).calls = Function.update s.calls call next := rfl

/-- One step of a call. -/
inductive Step (call : Nat) (s : State Model) : State Model → Prop where
  /-- `load` reserves its transition. -/
  | reserve (h : s.calls call = .idle) :
      Step call s
        (s.reserve call (.loading s.engine.reserveTransition.1) s.engine.reserveTransition.2)
  /-- `load_candidate` succeeds. -/
  | construct {epoch : BitVec 64} (h : s.calls call = .loading epoch) (candidate : Model) :
      Step call s (s.update call (.ready epoch candidate) s.engine)
  | publish {epoch : BitVec 64} {candidate : Model} (h : s.calls call = .ready epoch candidate)
      (haccepts : s.engine.accepts epoch = true) :
      Step call s
        (s.update call (.published candidate) { s.engine with loaded := some candidate })
  | reject {epoch : BitVec 64} {candidate : Model} (h : s.calls call = .ready epoch candidate)
      (haccepts : s.engine.accepts epoch = false) :
      Step call s (s.update call .failed s.engine)
  /-- `load_candidate` fails, or the lock is poisoned. -/
  | fail (h : (s.calls call).returned = false) : Step call s (s.update call .failed s.engine)
  /-- `unload`. -/
  | unload (h : s.calls call = .idle) :
      Step call s
        (s.reserve call .unloaded { s.engine.reserveTransition.2 with loaded := none })

/-- A step of some call. -/
def Next (s s' : State Model) : Prop :=
  ∃ call, Step call s s'

/-- In this step the call publishes the model. -/
def Publishes (call : Nat) (model : Model) (s s' : State Model) : Prop :=
  Step call s s' ∧ (s.calls call).returned = false ∧ s'.calls call = .published model

/-! ## Steps -/

section

variable {s s' : State Model} {call : Nat}

/-- The other calls stay where they are. -/
theorem Step.other (h : Step call s s') {other : Nat} (hother : other ≠ call) :
    s'.calls other = s.calls other := by
  cases h <;> exact Function.update_of_ne hother ..

/-- A call that steps has not returned. -/
theorem Step.running (h : Step call s s') : (s.calls call).returned = false := by
  cases h with
  | reserve h | construct h | publish h | reject h | unload h =>
      rw [h]
      rfl
  | fail h => exact h

/-- A call that has returned keeps its result. -/
theorem Step.returned (h : Step call s s') {other : Nat}
    (hother : (s.calls other).returned = true) :
    s'.calls other = s.calls other := by
  refine h.other fun heq => ?_
  rw [heq, h.running] at hother
  cases hother

/-- Only the first step of a call changes the reservations. -/
theorem Step.reservations (h : Step call s s') :
    s'.reservations = s.reservations ∨
      s'.reservations = call :: s.reservations ∧ s.calls call = .idle := by
  cases h with
  | reserve h | unload h => exact .inr ⟨rfl, h⟩
  | construct | publish | reject | fail => exact .inl rfl

/-- Only a publication and an unload change the visible model. -/
theorem Step.loaded (h : Step call s s') :
    s'.engine.loaded = s.engine.loaded ∨
      (∃ model, s'.calls call = .published model ∧ s'.engine.loaded = some model) ∨
      s'.calls call = .unloaded ∧ s'.engine.loaded = none := by
  cases h with
  | reserve | construct | reject | fail => exact .inl rfl
  | publish => exact .inr (.inl ⟨_, Function.update_self .., rfl⟩)
  | unload => exact .inr (.inr ⟨Function.update_self .., rfl⟩)

end

/-! ## The invariant -/

/-- The epoch counts the reservations, and that of a call tells its place among them. -/
structure Sound (s : State Model) : Prop where
  epoch : s.engine.epoch = BitVec.ofNat 64 s.reservations.length
  pending : ∀ call epoch, (s.calls call).epoch = some epoch →
    ∃ later earlier, s.reservations = later ++ call :: earlier ∧
      epoch = BitVec.ofNat 64 (earlier.length + 1)
  started : ∀ call ∈ s.reservations, s.calls call ≠ .idle
  nodup : s.reservations.Nodup

theorem sound_initial : Sound (initial Model) where
  epoch := rfl
  pending _ _ h := by cases h
  started _ h := by cases h
  nodup := List.nodup_nil

/-- A step without a reservation. -/
theorem Sound.update {s : State Model} (hs : Sound s) {call : Nat} {next : Call Model}
    {engine : EngineState Model} (hengine : engine.epoch = s.engine.epoch)
    (hepoch : ∀ epoch, next.epoch = some epoch → (s.calls call).epoch = some epoch)
    (hnext : next ≠ .idle) : Sound (s.update call next engine) := by
  refine ⟨hengine.trans hs.epoch, ?_, ?_, hs.nodup⟩
  · intro other epoch hother
    by_cases heq : other = call
    · rw [heq, State.update_calls, Function.update_self] at hother
      rw [heq]
      exact hs.pending call epoch (hepoch epoch hother)
    · rw [State.update_calls, Function.update_of_ne heq] at hother
      exact hs.pending other epoch hother
  · intro other hother
    by_cases heq : other = call
    · rw [heq, State.update_calls, Function.update_self]
      exact hnext
    · rw [State.update_calls, Function.update_of_ne heq]
      exact hs.started other hother

/-- A step with a reservation. -/
theorem Sound.reserve {s : State Model} (hs : Sound s) {call : Nat} {next : Call Model}
    {loaded : Option Model} (h : s.calls call = .idle)
    (hepoch : ∀ epoch, next.epoch = some epoch → epoch = s.engine.epoch + 1)
    (hnext : next ≠ .idle) :
    Sound (s.reserve call next ⟨s.engine.epoch + 1, loaded⟩) := by
  have hcount : s.engine.epoch + 1 = BitVec.ofNat 64 (s.reservations.length + 1) := by
    rw [hs.epoch, BitVec.ofNat_add]
    rfl
  refine ⟨hcount, ?_, ?_, List.nodup_cons.mpr ⟨fun hmem => hs.started call hmem h, hs.nodup⟩⟩
  · intro other epoch hother
    by_cases heq : other = call
    · rw [heq] at hother ⊢
      rw [State.reserve_calls, Function.update_self] at hother
      exact ⟨[], s.reservations, rfl, (hepoch epoch hother).trans hcount⟩
    · rw [State.reserve_calls, Function.update_of_ne heq] at hother
      obtain ⟨later, earlier, hsplit, hvalue⟩ := hs.pending other epoch hother
      exact ⟨call :: later, earlier, congrArg (call :: ·) hsplit, hvalue⟩
  · intro other hother
    by_cases heq : other = call
    · rw [heq, State.reserve_calls, Function.update_self]
      exact hnext
    · rw [State.reserve_calls, Function.update_of_ne heq]
      exact hs.started other ((List.mem_cons.mp hother).resolve_left heq)

theorem Sound.step {s s' : State Model} (hs : Sound s) (h : Next s s') : Sound s' := by
  obtain ⟨call, h⟩ := h
  cases h with
  | reserve h =>
      refine hs.reserve h ?_ (fun heq => by cases heq)
      intro epoch hepoch
      exact (Option.some.inj hepoch).symm
  | unload h => exact hs.reserve h (fun _ hepoch => by cases hepoch) (fun heq => by cases heq)
  | construct h =>
      refine hs.update rfl ?_ (fun heq => by cases heq)
      intro epoch hepoch
      rw [h]
      exact hepoch
  | publish | reject | fail =>
      exact hs.update rfl (fun _ hepoch => by cases hepoch) (fun heq => by cases heq)

/-- The invariant holds in every state of a run. -/
theorem sound_run {s : State Model} (hrun : Transition.Run Next (initial Model) s) : Sound s :=
  Transition.Preserves.run (fun _ _ hs h => hs.step h) hrun sound_initial

/-! ## Runs -/

/-- A publication has the last reservation. -/
theorem Sound.publishes_last {s s' : State Model} (hs : Sound s)
    (hfew : s.reservations.length < 2 ^ 64) {call : Nat} {model : Model}
    (h : Publishes call model s s') : s.reservations.head? = some call := by
  obtain ⟨hstep, _, hpublished⟩ := h
  cases hstep with
  | publish h haccepts =>
      obtain ⟨later, earlier, hsplit, hepoch⟩ := hs.pending call _ (by rw [h]; rfl)
      rw [EngineState.accepts, beq_iff_eq, hs.epoch, hepoch] at haccepts
      -- The counter has not wrapped, so nothing was reserved later.
      have hnat := congrArg BitVec.toNat haccepts
      rw [hsplit, List.length_append, List.length_cons] at hfew
      rw [hsplit, List.length_append, List.length_cons, BitVec.toNat_ofNat, BitVec.toNat_ofNat,
        Nat.mod_eq_of_lt hfew, Nat.mod_eq_of_lt (by omega)] at hnat
      have hlater : later = [] := List.length_eq_zero_iff.mp (by omega)
      rw [hsplit, hlater]
      rfl
  | reserve | construct | reject | fail | unload =>
      simp at hpublished

/-- The reservations only grow. -/
theorem run_reservations {s s' : State Model} (hrun : Transition.Run Next s s') :
    ∃ later, s'.reservations = later ++ s.reservations := by
  induction hrun with
  | refl => exact ⟨[], rfl⟩
  | tail _ hnext ih =>
      obtain ⟨later, hlater⟩ := ih
      obtain ⟨call, hstep⟩ := hnext
      cases hstep.reservations with
      | inl hsame => exact ⟨later, hsame.trans hlater⟩
      | inr hmore => exact ⟨call :: later, by rw [hmore.1, hlater]; rfl⟩

/-- A call that has returned keeps its result in every run. -/
theorem run_returned {s s' : State Model} (hrun : Transition.Run Next s s') {call : Nat}
    (h : (s.calls call).returned = true) : s'.calls call = s.calls call := by
  induction hrun with
  | refl => rfl
  | tail _ hnext ih =>
      obtain ⟨other, hstep⟩ := hnext
      rw [hstep.returned (by rw [ih]; exact h), ih]

/-- The visible model was published by some call, and nothing was reserved after that call then. -/
theorem visible_published {s : State Model} (hrun : Transition.Run Next (initial Model) s)
    (hfew : s.reservations.length < 2 ^ 64) {model : Model} (h : s.engine.loaded = some model) :
    ∃ call before after, Transition.Run Next (initial Model) before ∧
      Publishes call model before after ∧ before.reservations.head? = some call ∧
      Transition.Run Next after s := by
  induction hrun with
  | refl => cases h
  | @tail before after hbefore hnext ih =>
      obtain ⟨call, hstep⟩ := hnext
      have hbelow : before.reservations.length < 2 ^ 64 := by
        obtain ⟨later, hlater⟩ := run_reservations (.single ⟨call, hstep⟩)
        rw [hlater, List.length_append] at hfew
        omega
      obtain hsame | ⟨found, hpublished, hloaded⟩ | ⟨_, hcleared⟩ := hstep.loaded
      · rw [hsame] at h
        obtain ⟨publisher, first, second, hfirst, hpublishes, hhead, hrest⟩ := ih hbelow h
        exact ⟨publisher, first, second, hfirst, hpublishes, hhead, hrest.tail ⟨call, hstep⟩⟩
      · rw [hloaded] at h
        obtain rfl : found = model := Option.some.inj h
        have hpublishes : Publishes call found before after := ⟨hstep, hstep.running, hpublished⟩
        exact ⟨call, before, after, hbefore, hpublishes,
          (sound_run hbefore).publishes_last hbelow hpublishes, .refl⟩
      · rw [hcleared] at h
        cases h

/-- Loads and unloads take effect in the order of their reservations: a load publishes only if its
reservation is the last; after an unload no load with an earlier reservation publishes; the visible
model is that of a load whose reservation was the last when it was published; and a call that
returns an error has not changed the visible model in any of its steps. -/
theorem engine_linearises_by_epoch {s s' : State Model} {call : Nat}
    (hrun : Transition.Run Next (initial Model) s) (hfew : s.reservations.length < 2 ^ 64)
    (hstep : Step call s s') :
    (∀ model, Publishes call model s s' → s.reservations.head? = some call) ∧
    (∀ unload later earlier, s.calls unload = .unloaded →
      s.reservations = later ++ unload :: earlier → ∀ load ∈ earlier, ∀ model,
        ¬ Publishes load model s s') ∧
    (∀ model, s.engine.loaded = some model → ∃ publisher before after,
      Transition.Run Next (initial Model) before ∧ Publishes publisher model before after ∧
        before.reservations.head? = some publisher ∧ Transition.Run Next after s) ∧
    ∀ final, Transition.Run Next s' final → final.calls call = .failed →
      s'.engine.loaded = s.engine.loaded := by
  have hs := sound_run hrun
  refine ⟨fun model h => hs.publishes_last hfew h, ?_, fun model h =>
    visible_published hrun hfew h, ?_⟩
  · intro unload later earlier _ hsplit load hload model hpublishes
    have hhead := hs.publishes_last hfew hpublishes
    have hnodup := hs.nodup
    rw [hsplit] at hhead hnodup
    -- The unload stands before the load, so the load is not the first.
    have hearlier : load ∈ unload :: earlier := List.mem_cons_of_mem _ hload
    cases later with
    | nil =>
        obtain rfl : unload = load := Option.some.inj hhead
        exact (List.nodup_cons.mp hnodup).1 hload
    | cons first later =>
        obtain rfl : first = load := Option.some.inj hhead
        exact (List.nodup_cons.mp hnodup).1 (List.mem_append_right _ hearlier)
  · intro final hfinal hfailed
    obtain hsame | ⟨model, hpublished, _⟩ | ⟨hunloaded, _⟩ := hstep.loaded
    · exact hsame
    · rw [run_returned hfinal (by rw [hpublished]; rfl), hpublished] at hfailed
      cases hfailed
    · rw [run_returned hfinal (by rw [hunloaded]; rfl), hunloaded] at hfailed
      cases hfailed

/-- A load that is overtaken by an unload is rejected. -/
theorem engine_linearises_overtaken :
    ∃ s s' : State String, Transition.Run Next (initial String) s ∧ s.reservations = [1, 0] ∧
      Step 0 s s' ∧ s'.calls 0 = .failed ∧
      (s.engine.loaded = none ∧ s'.engine.loaded = s.engine.loaded) := by
  have h : Transition.Run Next (initial String) _ := .single ⟨0, .reserve rfl⟩
  replace h := h.tail ⟨0, .construct rfl "model"⟩
  replace h := h.tail ⟨1, .unload rfl⟩
  obtain ⟨s, hready, hcount, hloaded, hepoch, hrun⟩ : ∃ s : State String,
      s.calls 0 = .ready 1 "model" ∧ s.reservations = [1, 0] ∧ s.engine.loaded = none ∧
        s.engine.epoch = 2 ∧ Transition.Run Next (initial String) s :=
    ⟨_, rfl, rfl, rfl, rfl, h⟩
  have hrejected : Step 0 s _ := .reject hready (by rw [EngineState.accepts, hepoch]; decide)
  have hfailed : (s.update 0 .failed s.engine).calls 0 = .failed := by
    rw [State.update_calls, Function.update_self]
  exact ⟨s, _, hrun, hcount, hrejected, hfailed, hloaded,
    (engine_linearises_by_epoch hrun (by rw [hcount]; decide) hrejected).2.2.2 _ .refl hfailed⟩

end EmbeddingServer.Epoch
