import EmbeddingServer.Runtime.AdminLock

/-!
# The shutdown fence

Once the fence is set nothing is admitted and no model is published; every caller of
`shutdown` returns the result of the one flight; the result is true only if no work was
admitted at some moment behind the fence; deadlines only tighten; and when the result is
published the registries are empty and the lifecycle is stopped, for good. A shutdown of
the application also leaves its loaded set empty for good.
-/

namespace EmbeddingServer.Lifecycle

/-! ## Behind the fence -/

/-- The call was admitted: it got its work permit, or registered its engine. -/
def LoadPc.admitted : LoadPc → Bool
  | .called | .finished none _ => false
  | _ => true

def WorkPc.admitted : WorkPc → Bool
  | .called | .refused => false
  | _ => true

@[inherit_doc LoadPc.admitted]
def Call.admitted : Call → Bool
  | .load _ _ pc => pc.admitted
  | .work _ pc => pc.admitted
  | .register _ (.finished (.ok _)) => true
  | .holding next => next.admitted
  | _ => false

/-- Behind the fence no section admits its call. -/
theorem Section.admitted {inner : Inner} {call next : Call} {taken : Nat} {updates : List Update}
    (h : Section inner call taken updates next) (hfence : inner.registry.draining = true)
    (hnext : next.admitted = true) : call.admitted = true := by
  cases h with
  | loadAdmitted h => simp [Inner.admitWork, hfence] at h
  | workAdmitted h => simp [Inner.admitWork, hfence] at h
  | registered _ _ h => simp [Inner.registerEngine, hfence] at h
  | notReserved | reserved | notPublished | published | unwound | notRetracted | retracted => rfl
  | loadRefused | notRegistered | notUnloaded | unloaded | deleted | workRefused | shutdown =>
      cases hnext

/-- Nothing is admitted outside the lock. -/
theorem Move.admitted {inner inner' : Inner} {call next : Call} (h : Move inner call inner' next)
    (hnext : next.admitted = true) : call.admitted = true := by
  cases h with
  | loadRejected | registerRejected | deleteRejected | directShutdown | completed | abandoned
  | droppedShutdown => cases hnext
  | _ => rfl

/-- A quiet write publishes no model. -/
theorem quiet_models {update : Update} (h : Update.quiet update = true) (registry : Registry)
    {id : String} {key : ModelKey} (hid : (update.onRegistry registry).models id = some key) :
    registry.models id = some key := by
  cases update with
  | registry update =>
      cases update with
      | insertModel => cases h
      | removeModel id' =>
          simp only [Update.onRegistry, RegistryUpdate.apply, Function.update_apply] at hid
          split at hid
          · cases hid
          · exact hid
      | clearModels => cases hid
      | _ => exact hid
  | _ => exact hid

/-- A quiet write reserves nothing. -/
theorem quiet_loading {update : Update} (h : Update.quiet update = true) (registry : Registry)
    {id : String} {key : ModelKey} (hid : (update.onRegistry registry).loading id = some key) :
    registry.loading id = some key := by
  cases update with
  | registry update =>
      cases update with
      | insertLoading => cases h
      | removeLoading id' =>
          simp only [Update.onRegistry, RegistryUpdate.apply, Function.update_apply] at hid
          split at hid
          · cases hid
          · exact hid
      | clearLoading => cases hid
      | _ => exact hid
  | _ => exact hid

/-- A quiet write lists no model in health. -/
theorem quiet_health {update : Update} (h : Update.quiet update = true) (registry : Registry)
    {key : ModelKey} {state : ModelState}
    (hkey : (update.onRegistry registry).health.models key = some state) :
    registry.health.models key = some state := by
  cases update with
  | registry update =>
      cases update with
      | setHealth => cases h
      | removeHealth key' =>
          simp only [Update.onRegistry, RegistryUpdate.apply, HealthState.removeModel,
            Function.update_apply] at hkey
          split at hkey
          · cases hkey
          · exact hkey
      | transition next reason =>
          simpa [Update.onRegistry, RegistryUpdate.apply] using hkey
      | _ => exact hkey
  | _ => exact hkey

/-- Stopped is terminal under every write. -/
theorem on_registry_stopped {registry : Registry} (h : registry.health.lifecycle = .stopped)
    (update : Update) : (update.onRegistry registry).health.lifecycle = .stopped := by
  cases update with
  | registry update =>
      cases update with
      | transition next reason =>
          simp [Update.onRegistry, RegistryUpdate.apply, HealthState.transition_of_stopped h, h]
      | _ => exact h
  | _ => exact h

/-- What a step can add behind the fence: nothing. -/
structure Closed (s s' : State) : Prop where
  draining : s'.inner.registry.draining = true
  admitted : ∀ task, (s'.calls task).admitted = true → (s.calls task).admitted = true
  models : ∀ id key, s'.inner.registry.models id = some key →
    s.inner.registry.models id = some key

theorem Closed.trans {a b c : State} (hab : Closed a b) (hbc : Closed b c) : Closed a c where
  draining := hbc.draining
  admitted := fun task h => hab.admitted task (hbc.admitted task h)
  models := fun id key h => hab.models id key (hbc.models id key h)

/-- A new program point of one call. -/
theorem State.with_call_admitted {s : State} {task : Nat} {call : Call}
    (h : call.admitted = true → (s.calls task).admitted = true) (other : Nat)
    (hother : ((s.withCall task call).calls other).admitted = true) :
    (s.calls other).admitted = true := by
  by_cases hsame : other = task
  · subst hsame
    exact h (by simpa [State.withCall] using hother)
  · simpa [State.withCall, hsame] using hother

/-- A step behind the fence adds nothing. -/
theorem Fenced.closed {s s' : State} {actor : Actor} (hs : Fenced s)
    (hfence : s.inner.registry.draining = true) (hstep : Step actor s s') : Closed s s' := by
  have hsame : ∀ {registry : Registry}, registry = s.inner.registry → ∀ id key,
      registry.models id = some key → s.inner.registry.models id = some key := by
    rintro _ rfl id key h
    exact h
  cases hstep with
  | enter hfree h => exact ⟨hfence, State.with_call_admitted (h.admitted hfence), hsame rfl⟩
  | @write _ _ update updates h =>
      obtain ⟨_, hwrites⟩ := hs
      simp only [State.outstanding, h] at hwrites
      refine ⟨?_, fun _ h => h, ?_⟩
      · rw [Update.apply_registry]
        exact on_registry_draining hfence update
      · intro id key hid
        rw [Update.apply_registry] at hid
        exact quiet_models (hwrites.1.quiet hfence) _ hid
  | leave h hcall =>
      refine ⟨hfence, State.with_call_admitted ?_, hsame rfl⟩
      rw [hcall]
      exact fun h => h
  | move h =>
      refine ⟨?_, State.with_call_admitted h.admitted, hsame h.registry⟩
      rw [h.registry]
      exact hfence
  | finish h hstep =>
      refine ⟨hstep.draining.trans hfence, fun _ h => h, ?_⟩
      intro id key hid
      cases hstep <;> exact hid
  | begin h hcall =>
      refine ⟨hfence, State.with_call_admitted ?_, hsame rfl⟩
      intro hadmitted
      cases hcall <;> cases hadmitted
  | lockLoaded h _ | recordFenced h _ | recordOpen h _ | record h | fenceApplication h
  | clearLoaded h _ =>
      refine ⟨hfence, State.with_call_admitted ?_, hsame rfl⟩
      rw [h]
      exact fun h => h
  | finishEnter | finishLeave | unloadRecord | tick | lease =>
      exact ⟨hfence, fun _ h => h, hsame rfl⟩

/-- A run behind the fence adds nothing. -/
theorem Fenced.closed_run {s s' : State} (hs : Fenced s)
    (hfence : s.inner.registry.draining = true) (hrun : Transition.Run Next s s') :
    Closed s s' := by
  induction hrun with
  | refl => exact ⟨hfence, fun _ h => h, fun _ _ h => h⟩
  | tail hbelow hlast ih =>
      obtain ⟨actor, hstep⟩ := hlast
      exact ih.trans ((fenced_preserved.run hbelow hs).closed ih.draining hstep)

/-! ## The flight -/

/-- No model is registered and none is loading. -/
structure Emptied (registry : Registry) : Prop where
  models : ∀ id, registry.models id = none
  loading : ∀ id, registry.loading id = none

/-- The registries after the last publication of a shutdown. -/
structure Terminal (registry : Registry) : Prop extends Emptied registry where
  health : ∀ key, registry.health.models key = none
  lifecycle : registry.health.lifecycle = .stopped

theorem Emptied.quiet {registry : Registry} (h : Emptied registry) {update : Update}
    (hquiet : Update.quiet update = true) : Emptied (update.onRegistry registry) where
  models := by
    intro id
    cases hid : (update.onRegistry registry).models id with
    | none => rfl
    | some key => exact absurd (quiet_models hquiet registry hid) (by simp [h.models id])
  loading := by
    intro id
    cases hid : (update.onRegistry registry).loading id with
    | none => rfl
    | some key => exact absurd (quiet_loading hquiet registry hid) (by simp [h.loading id])

/-- How far the task of the flight has come with the registries. -/
def clearance : FinishPc → Nat
  | .released _ => 1
  | .unlisted _ => 2
  | .stopped _ | .finished _ => 3
  | _ => 0

/-- What the task of the flight has done by its program point. -/
structure Flown (s : State) : Prop where
  emptied : ∀ flight, s.inner.flight = some flight → 1 ≤ clearance flight.task →
    Emptied s.inner.registry
  unlisted : ∀ flight, s.inner.flight = some flight → 2 ≤ clearance flight.task →
    ∀ key, s.inner.registry.health.models key = none
  stopped : ∀ flight, s.inner.flight = some flight → 3 ≤ clearance flight.task →
    s.inner.registry.health.lifecycle = .stopped
  /-- Inside its section, the task holds the lock and its writes empty the maps. -/
  clearing : ∀ flight drained, s.inner.flight = some flight → flight.task = .clearing drained →
    (∃ updates, s.admin = some (.finisher, updates)) ∧ Emptied s.settled
  published : ∀ flight result, s.inner.flight = some flight → flight.completion = some result →
    flight.task = .finished result

theorem Flown.congr {s s' : State} (hs : Flown s) (hflight : s'.inner.flight = s.inner.flight)
    (hregistry : s'.inner.registry = s.inner.registry) (hadmin : s'.admin = s.admin) :
    Flown s' := by
  obtain ⟨hemptied, hunlisted, hstopped, hclearing, hpublished⟩ := hs
  have hsettled : s'.settled = s.settled := by
    simp only [State.settled, State.outstanding, hadmin, hregistry]
  constructor <;> simp only [hflight, hregistry, hadmin, hsettled] <;> assumption

/-- A write keeps the task and the completion of a flight, or opens one. -/
theorem apply_flight {inner : Inner} {update : Update} {flight' : ShutdownFlight}
    (h : (update.apply inner).flight = some flight') :
    (∃ flight, inner.flight = some flight ∧ flight'.task = flight.task ∧
      flight'.completion = flight.completion) ∨
    (flight'.task = .spawned (inner.admitted == 0) ∧ flight'.completion = none ∧
      ∃ deadline, update = .openFlight deadline) := by
  cases update with
  | openFlight deadline =>
      cases h
      exact .inr ⟨rfl, rfl, deadline, rfl⟩
  | tighten deadline =>
      simp only [Update.apply, Option.map_eq_some_iff] at h
      obtain ⟨flight, hflight, rfl⟩ := h
      exact .inl ⟨flight, hflight, rfl, rfl⟩
  | _ => exact .inl ⟨flight', h, rfl, rfl⟩

theorem Flown.write {s : State} (hs : Flown s) (hfenced : Fenced s)
    {actor : Actor} {update : Update}
    {updates : List Update} (h : s.admin = some (actor, update :: updates)) :
    Flown { s with inner := update.apply s.inner, admin := some (actor, updates) } := by
  obtain ⟨_, hwrites⟩ := id hfenced
  simp only [State.outstanding, h] at hwrites
  have hsettled : State.settled { s with
      inner := update.apply s.inner, admin := some (actor, updates) } = s.settled := by
    simp [State.settled, State.outstanding, h]
  -- Whatever the new flight says was said by the old one, unless it was just opened.
  have hold : ∀ flight', (update.apply s.inner).flight = some flight' →
      (∃ flight, s.inner.flight = some flight ∧ flight'.task = flight.task ∧
        flight'.completion = flight.completion ∧ Update.quiet update = true) ∨
      ∃ drained, flight'.task = .spawned drained ∧ flight'.completion = none := by
    intro flight' hflight'
    rcases apply_flight hflight' with ⟨flight, hflight, htask, hcompletion⟩ |
      ⟨htask, hcompletion, _⟩
    · exact .inl ⟨flight, hflight, htask, hcompletion,
        hwrites.1.quiet (hfenced.draining hflight)⟩
    · exact .inr ⟨_, htask, hcompletion⟩
  constructor
  · intro flight' hflight' hcleared
    rcases hold flight' hflight' with ⟨flight, hflight, htask, _, hquiet⟩ | ⟨drained, htask, _⟩
    · rw [Update.apply_registry]
      rw [htask] at hcleared
      exact (hs.emptied flight hflight hcleared).quiet hquiet
    · simp [htask, clearance] at hcleared
  · intro flight' hflight' hcleared key
    rcases hold flight' hflight' with ⟨flight, hflight, htask, _, hquiet⟩ | ⟨drained, htask, _⟩
    · rw [Update.apply_registry]
      rw [htask] at hcleared
      cases hkey : (update.onRegistry s.inner.registry).health.models key with
      | none => rfl
      | some state =>
          have hbefore := quiet_health hquiet _ hkey
          simp [hs.unlisted flight hflight hcleared key] at hbefore
    · simp [htask, clearance] at hcleared
  · intro flight' hflight' hcleared
    rcases hold flight' hflight' with ⟨flight, hflight, htask, _, hquiet⟩ | ⟨drained, htask, _⟩
    · rw [Update.apply_registry]
      rw [htask] at hcleared
      exact on_registry_stopped (hs.stopped flight hflight hcleared) update
    · simp [htask, clearance] at hcleared
  · intro flight' drained hflight' hclearing
    rw [hsettled]
    rcases hold flight' hflight' with ⟨flight, hflight, htask, _, _⟩ | ⟨drained', htask, _⟩
    · obtain ⟨⟨updates', hadmin⟩, hemptied⟩ :=
        hs.clearing flight drained hflight (htask ▸ hclearing)
      rw [h] at hadmin
      cases hadmin
      exact ⟨⟨updates, rfl⟩, hemptied⟩
    · simp [htask] at hclearing
  · intro flight' result hflight' hresult
    rcases hold flight' hflight' with ⟨flight, hflight, htask, hcompletion, _⟩ | ⟨drained, _, hnone⟩
    · rw [htask]
      exact hs.published flight result hflight (hcompletion ▸ hresult)
    · simp [hnone] at hresult

/-- A step of the task outside the lock. -/
theorem Flown.finish {s : State} (hs : Flown s) {inner : Inner} {flight flight' : ShutdownFlight}
    (hflight : s.inner.flight = some flight)
    (hstep : Finish s.clock s.inner flight inner flight') :
    Flown { s with inner := { inner with flight := some flight' } } := by
  have hpublished : ∀ result, flight.completion = some result → flight.task = .finished result :=
    fun result h => hs.published flight result hflight h
  -- Before its last three steps the task has neither cleared nor published anything.
  have hearly : clearance flight'.task = 0 → (∀ drained, flight'.task ≠ .clearing drained) →
      flight'.completion = flight.completion → (∀ result, flight.task ≠ .finished result) →
      Flown { s with inner := { inner with flight := some flight' } } := by
    intro hcleared hclearing hcompletion hunfinished
    constructor
    · rintro _ ⟨⟩ h
      simp [hcleared] at h
    · rintro _ ⟨⟩ h
      simp [hcleared] at h
    · rintro _ ⟨⟩ h
      simp [hcleared] at h
    · rintro _ drained ⟨⟩ h
      exact absurd h (hclearing drained)
    · rintro _ result ⟨⟩ h
      exact absurd (hpublished result (hcompletion ▸ h)) (hunfinished result)
  cases hstep with
  | clearHealth h =>
      have hemptied := hs.emptied flight hflight (by simp [h, clearance])
      constructor
      · rintro _ ⟨⟩ _
        exact ⟨hemptied.models, hemptied.loading⟩
      · rintro _ ⟨⟩ _ key
        rfl
      · rintro _ ⟨⟩ hcleared
        simp [clearance] at hcleared
      · rintro _ drained ⟨⟩ ⟨⟩
      · rintro _ result ⟨⟩ hresult
        exact absurd (hpublished result hresult) (by simp [h])
  | stop h =>
      have hemptied := hs.emptied flight hflight (by simp [h, clearance])
      have hunlisted := hs.unlisted flight hflight (by simp [h, clearance])
      constructor
      · rintro _ ⟨⟩ _
        exact ⟨hemptied.models, hemptied.loading⟩
      · rintro _ ⟨⟩ _ key
        simpa using hunlisted key
      · rintro _ ⟨⟩ _
        exact HealthState.transition_stopped _ _
      · rintro _ drained ⟨⟩ ⟨⟩
      · rintro _ result ⟨⟩ hresult
        exact absurd (hpublished result hresult) (by simp [h])
  | publish h =>
      have hcleared : 3 ≤ clearance flight.task := by simp [h, clearance]
      constructor
      · rintro _ ⟨⟩ _
        exact hs.emptied flight hflight (by omega)
      · rintro _ ⟨⟩ _
        exact hs.unlisted flight hflight (by omega)
      · rintro _ ⟨⟩ _
        exact hs.stopped flight hflight hcleared
      · rintro _ drained ⟨⟩ ⟨⟩
      · rintro _ result ⟨⟩ ⟨⟩
        rfl
  | lost h =>
      refine hearly rfl (fun _ => by simp) rfl ?_
      intro result hfinished
      simp [hfinished] at h
  | drainedAtOnce h | wait h | deadlinePassed h _ _ | deadlineOpen h _ | drained h _ | park h _
  | woken h | timer h _ | sweep h | forceStop h | graceful h | fence h | coordinate h
  | abortSchedulers h | aborted h =>
      exact hearly rfl (fun _ => by simp) rfl (fun _ => by simp [h])

theorem flown_preserved {s s' : State} (hfenced : Fenced s) (hs : Flown s) {actor : Actor}
    (hstep : Step actor s s') : Flown s' := by
  cases hstep with
  | write h => exact hs.write hfenced h
  | finish h hstep => exact hs.finish h hstep
  | move h => exact hs.congr h.flight h.registry rfl
  | enter hfree h =>
      refine ⟨hs.emptied, hs.unlisted, hs.stopped, ?_, hs.published⟩
      intro flight drained hflight hclearing
      obtain ⟨⟨_, hadmin⟩, _⟩ := hs.clearing flight drained hflight hclearing
      simp [hfree] at hadmin
  | leave h hcall =>
      refine ⟨hs.emptied, hs.unlisted, hs.stopped, ?_, hs.published⟩
      intro flight drained hflight hclearing
      obtain ⟨⟨_, hadmin⟩, _⟩ := hs.clearing flight drained hflight hclearing
      simp [h] at hadmin
  | finishEnter hfree hflight htask =>
      constructor
      · rintro _ ⟨⟩ hcleared
        simp [clearance] at hcleared
      · rintro _ ⟨⟩ hcleared
        simp [clearance] at hcleared
      · rintro _ ⟨⟩ hcleared
        simp [clearance] at hcleared
      · rintro _ drained ⟨⟩ _
        exact ⟨⟨_, rfl⟩, fun _ => rfl, fun _ => rfl⟩
      · rintro _ result ⟨⟩ hresult
        exact absurd (hs.published _ result hflight hresult) (by simp [htask])
  | finishLeave h hflight htask =>
      obtain ⟨_, hemptied⟩ := hs.clearing _ _ hflight htask
      constructor
      · rintro _ ⟨⟩ _
        simpa [State.settled, State.outstanding, h] using hemptied
      · rintro _ ⟨⟩ hcleared
        simp [clearance] at hcleared
      · rintro _ ⟨⟩ hcleared
        simp [clearance] at hcleared
      · rintro _ drained ⟨⟩ ⟨⟩
      · rintro _ result ⟨⟩ hresult
        exact absurd (hs.published _ result hflight hresult) (by simp [htask])
  | begin | lockLoaded | recordFenced | recordOpen | record | fenceApplication | clearLoaded
  | unloadRecord | tick | lease => exact hs.congr rfl rfl rfl

/-! ## The callers -/

/-- What a shutdown has returned. -/
def Call.verdict : Call → Option Bool
  | .shutdown _ (.returned result) | .shutdown _ (.cleared result) => some result
  | .holding next => next.verdict
  | _ => none

/-- No section ends with the return of a shutdown. -/
theorem Section.verdict {inner : Inner} {call next : Call} {taken : Nat} {updates : List Update}
    (h : Section inner call taken updates next) : next.verdict = none := by
  cases h <;> rfl

/-- The flight is over with the result: it was published, or the task was lost. -/
def Decided (inner : Inner) (result : Bool) : Prop :=
  ∃ flight, inner.flight = some flight ∧
    (flight.completion = some result ∨ (flight.task = .lost ∧ result = false))

/-- The task of a flight that has sent its result or was lost. -/
def landed : FinishPc → Bool
  | .finished _ | .lost => true
  | _ => false

/-- A flight that is over stays as it is, but for its deadline. -/
theorem landed_step {s s' : State} (hfenced : Fenced s) {actor : Actor} (hstep : Step actor s s')
    {flight : ShutdownFlight} (hflight : s.inner.flight = some flight)
    (hlanded : landed flight.task = true) :
    ∃ flight', s'.inner.flight = some flight' ∧ flight'.task = flight.task ∧
      flight'.completion = flight.completion := by
  cases hstep with
  | move h => exact ⟨flight, h.flight.trans hflight, rfl, rfl⟩
  | @write _ _ update updates h =>
      obtain ⟨_, hwrites⟩ := hfenced
      simp only [State.outstanding, h] at hwrites
      cases update with
      | openFlight deadline =>
          have hunopened := (hwrites.1.opens deadline rfl).2
          simp [fenceOf, hflight] at hunopened
      | tighten deadline =>
          refine ⟨{ flight with deadline := tightened flight.deadline deadline }, ?_, rfl, rfl⟩
          simp [Update.apply, hflight]
      | _ => exact ⟨flight, hflight, rfl, rfl⟩
  | finish h hstep =>
      cases hflight.symm.trans h
      -- The task takes no further step.
      cases hstep with
      | lost h =>
          rcases h with ⟨_, h⟩ | ⟨_, h⟩ | ⟨_, h⟩ <;> simp [h, landed] at hlanded
      | drainedAtOnce h | wait h | deadlinePassed h _ _ | deadlineOpen h _ | drained h _ | park h _
      | woken h | timer h _ | sweep h | forceStop h | graceful h | fence h | coordinate h
      | abortSchedulers h | aborted h | clearHealth h | stop h | publish h =>
          simp [h, landed] at hlanded
  | finishEnter hfree h htask =>
      cases hflight.symm.trans h
      simp [htask, landed] at hlanded
  | finishLeave hadmin h htask =>
      cases hflight.symm.trans h
      simp [htask, landed] at hlanded
  | begin | enter | leave | lockLoaded | recordFenced | recordOpen | record | fenceApplication
  | clearLoaded | unloadRecord | tick | lease => exact ⟨flight, hflight, rfl, rfl⟩

/-- A decided flight stays so. -/
theorem Decided.step {s s' : State} (hs : Flown s) (hfenced : Fenced s) {actor : Actor}
    (hstep : Step actor s s') {result : Bool} (h : Decided s.inner result) :
    Decided s'.inner result := by
  obtain ⟨flight, hflight, hdecided⟩ := h
  have hlanded : landed flight.task = true := by
    rcases hdecided with hcompletion | ⟨hlost, _⟩
    · rw [hs.published flight result hflight hcompletion]
      rfl
    · rw [hlost]
      rfl
  obtain ⟨flight', hflight', htask, hcompletion⟩ := landed_step hfenced hstep hflight hlanded
  refine ⟨flight', hflight', ?_⟩
  rw [htask, hcompletion]
  exact hdecided

/-- Two decisions agree. -/
theorem Decided.unique {s : State} (hs : Flown s) {result result' : Bool}
    (h : Decided s.inner result) (h' : Decided s.inner result') : result = result' := by
  obtain ⟨flight, hflight, hdecided⟩ := h
  obtain ⟨flight', hflight', hdecided'⟩ := h'
  cases hflight.symm.trans hflight'
  rcases hdecided with hcompletion | ⟨hlost, rfl⟩
  · rcases hdecided' with hcompletion' | ⟨hlost', _⟩
    · exact Option.some.inj (hcompletion.symm.trans hcompletion')
    · have hfinished := hs.published flight result hflight hcompletion
      simp [hlost'] at hfinished
  · rcases hdecided' with hcompletion' | ⟨_, rfl⟩
    · have hfinished := hs.published flight result' hflight hcompletion'
      simp [hlost] at hfinished
    · rfl

/-- Every shutdown that has returned has the result of the flight. -/
def Returned (s : State) : Prop :=
  ∀ task result, (s.calls task).verdict = some result → Decided s.inner result

theorem returned_preserved {s s' : State} (hflown : Flown s) (hfenced : Fenced s)
    (hs : Returned s) {actor : Actor} (hstep : Step actor s s') : Returned s' := by
  -- The call that takes the step has returned only if it had, or has just read the result.
  have hcall : ∀ (task : Nat) {call : Call}, (∀ result, call.verdict = some result →
        Decided s.inner result) → ∀ other result,
        ((s.withCall task call).calls other).verdict = some result →
        Decided s.inner result := by
    intro task call hcall other result hother
    by_cases hsame : other = task
    · subst hsame
      exact hcall result (by simpa [State.withCall] using hother)
    · exact hs other result (by simpa [State.withCall, hsame] using hother)
  intro other result hother
  refine Decided.step hflown hfenced hstep ?_
  cases hstep with
  | @enter _ task taken updates next hfree h =>
      refine hcall task (fun result hresult => ?_) other result hother
      cases h.verdict.symm.trans hresult
  | @leave _ task next h hholding =>
      refine hcall task (fun result hresult => hs task result ?_) other result hother
      rw [hholding]
      exact hresult
  | @move _ task inner next h =>
      refine hcall task (fun result hresult => ?_) other result hother
      generalize s.calls task = call at h
      cases h with
      | completed hflight hcompletion =>
          cases hresult
          exact ⟨_, hflight, .inl hcompletion⟩
      | abandoned hflight hlost =>
          cases hresult
          exact ⟨_, hflight, .inr ⟨hlost, rfl⟩⟩
      | _ => cases hresult
  | begin h hbegins =>
      refine hcall _ (fun result hresult => ?_) other result hother
      cases hbegins <;> cases hresult
  | @clearLoaded _ task _ h _ =>
      refine hcall task (fun result hresult => hs task result ?_) other result hother
      rw [h]
      exact hresult
  | lockLoaded | recordFenced | recordOpen | record | fenceApplication =>
      refine hcall _ (fun result hresult => ?_) other result hother
      cases hresult
  | write | finish | finishEnter | finishLeave | unloadRecord | tick | lease =>
      exact hs other result hother

/-! ## The drained moment -/

/-- The value of `drained`, once the task knows it. -/
def drainedAt : FinishPc → Option Bool
  | .spawned true => some true
  | .waited drained | .fencing drained | .fenced drained | .coordinated drained
  | .aborting drained | .releasing drained | .clearing drained | .released drained
  | .unlisted drained | .stopped drained | .finished drained => some drained
  | .swept => some false
  | _ => none

/-- The task comes to know that work was drained only when none is admitted. -/
theorem drained_step {s s' : State} (hfenced : Fenced s) {actor : Actor} (hstep : Step actor s s')
    {flight' : ShutdownFlight} (hflight' : s'.inner.flight = some flight')
    (hdrained : drainedAt flight'.task = some true) :
    (∃ flight, s.inner.flight = some flight ∧ drainedAt flight.task = some true) ∨
      s.inner.registry.draining = true ∧ s.inner.admitted = 0 := by
  cases hstep with
  | @write _ _ update updates h =>
      obtain ⟨_, hwrites⟩ := hfenced
      simp only [State.outstanding, h] at hwrites
      rcases apply_flight hflight' with ⟨flight, hflight, htask, _⟩ | ⟨htask, _, deadline, hopens⟩
      · exact .inl ⟨flight, hflight, htask ▸ hdrained⟩
      · refine .inr ⟨(hwrites.1.opens deadline hopens).1, ?_⟩
        cases hzero : s.inner.admitted == 0 with
        | true => simpa using hzero
        | false => simp [htask, hzero, drainedAt] at hdrained
  | move h =>
      rw [h.flight] at hflight'
      exact .inl ⟨flight', hflight', hdrained⟩
  | finish h hstep =>
      cases hflight'
      cases hstep with
      | drained htask hzero => exact .inr ⟨hfenced.draining h, hzero⟩
      | wait | deadlinePassed | deadlineOpen | park | woken | timer | sweep | forceStop | lost =>
          cases hdrained
      | drainedAtOnce htask | graceful htask | fence htask | coordinate htask
      | abortSchedulers htask | aborted htask | clearHealth htask | stop htask | publish htask =>
          refine .inl ⟨_, h, ?_⟩
          rw [htask]
          exact hdrained
  | finishEnter hfree h htask =>
      cases hflight'
      refine .inl ⟨_, h, ?_⟩
      rw [htask]
      exact hdrained
  | finishLeave hadmin h htask =>
      cases hflight'
      refine .inl ⟨_, h, ?_⟩
      rw [htask]
      exact hdrained
  | begin | enter | leave | lockLoaded | recordFenced | recordOpen | record | fenceApplication
  | clearLoaded | unloadRecord | tick | lease => exact .inl ⟨flight', hflight', hdrained⟩

/-- A task that knows that work was drained comes from a moment behind the fence at which none
was admitted. -/
theorem drained_moment {start s : State} (hstart : Fenced start) (hnone : start.inner.flight = none)
    (hrun : Transition.Run Next start s) :
    ∀ flight, s.inner.flight = some flight → drainedAt flight.task = some true →
    ∃ moment, Transition.Run Next start moment ∧ Transition.Run Next moment s ∧
      moment.inner.registry.draining = true ∧ moment.inner.admitted = 0 := by
  induction hrun with
  | refl =>
      intro flight hflight
      simp [hnone] at hflight
  | @tail s s' hbelow hlast ih =>
      intro flight' hflight' hdrained
      obtain ⟨actor, hstep⟩ := hlast
      have hfenced := fenced_preserved.run hbelow hstart
      rcases drained_step hfenced hstep hflight' hdrained with
        ⟨flight, hflight, hknown⟩ | ⟨hdraining, hzero⟩
      · obtain ⟨moment, hto, hfrom, hmoment⟩ := ih flight hflight hknown
        exact ⟨moment, hto, hfrom.tail ⟨actor, hstep⟩, hmoment⟩
      · exact ⟨s, hbelow, .single ⟨actor, hstep⟩, hdraining, hzero⟩

/-! ## The deadline -/

/-- The second deadline is not later than the first; an absent one never passes. -/
def NotLater (deadline deadline' : Option Nat) : Prop :=
  ∀ at₀, deadline = some at₀ → ∃ at₁, deadline' = some at₁ ∧ at₁ ≤ at₀

theorem NotLater.refl (deadline : Option Nat) : NotLater deadline deadline :=
  fun at₀ h => ⟨at₀, h, le_rfl⟩

theorem NotLater.trans {a b c : Option Nat} (hab : NotLater a b) (hbc : NotLater b c) :
    NotLater a c := by
  intro at₀ h₀
  obtain ⟨at₁, h₁, hle⟩ := hab at₀ h₀
  obtain ⟨at₂, h₂, hle'⟩ := hbc at₁ h₁
  exact ⟨at₂, h₂, hle'.trans hle⟩

/-- A later shutdown never moves the deadline later. -/
theorem not_later_tightened (deadline requested : Option Nat) :
    NotLater deadline (tightened deadline requested) := by
  rintro at₀ rfl
  cases requested with
  | none => exact ⟨at₀, rfl, le_rfl⟩
  | some requested => exact ⟨min at₀ requested, rfl, min_le_left _ _⟩

/-- A flight stays open, and its deadline only tightens. -/
theorem deadline_step {s s' : State} (hfenced : Fenced s) {actor : Actor} (hstep : Step actor s s')
    {flight : ShutdownFlight} (hflight : s.inner.flight = some flight) :
    ∃ flight', s'.inner.flight = some flight' ∧ NotLater flight.deadline flight'.deadline := by
  cases hstep with
  | @write _ _ update updates h =>
      obtain ⟨_, hwrites⟩ := hfenced
      simp only [State.outstanding, h] at hwrites
      cases update with
      | openFlight deadline =>
          have hunopened := (hwrites.1.opens deadline rfl).2
          simp [fenceOf, hflight] at hunopened
      | tighten deadline =>
          refine ⟨{ flight with deadline := tightened flight.deadline deadline }, ?_,
            not_later_tightened flight.deadline deadline⟩
          simp [Update.apply, hflight]
      | _ => exact ⟨flight, hflight, .refl _⟩
  | move h => exact ⟨flight, h.flight.trans hflight, .refl _⟩
  | finish h hstep =>
      cases hflight.symm.trans h
      refine ⟨_, rfl, ?_⟩
      cases hstep <;> exact .refl _
  | finishEnter hfree h htask =>
      cases hflight.symm.trans h
      exact ⟨_, rfl, .refl _⟩
  | finishLeave hadmin h htask =>
      cases hflight.symm.trans h
      exact ⟨_, rfl, .refl _⟩
  | begin | enter | leave | lockLoaded | recordFenced | recordOpen | record | fenceApplication
  | clearLoaded | unloadRecord | tick | lease => exact ⟨flight, hflight, .refl _⟩

theorem deadline_run {s s' : State} (hfenced : Fenced s) (hrun : Transition.Run Next s s')
    {flight : ShutdownFlight} (hflight : s.inner.flight = some flight) :
    ∃ flight', s'.inner.flight = some flight' ∧ NotLater flight.deadline flight'.deadline := by
  induction hrun with
  | refl => exact ⟨flight, hflight, .refl _⟩
  | tail hbelow hlast ih =>
      obtain ⟨flight₁, hflight₁, hnotLater⟩ := ih
      obtain ⟨actor, hstep⟩ := hlast
      obtain ⟨flight₂, hflight₂, hnotLater'⟩ :=
        deadline_step (fenced_preserved.run hbelow hfenced) hstep hflight₁
      exact ⟨flight₂, hflight₂, hnotLater.trans hnotLater'⟩

/-! ## The loaded set of the application -/

/-- A load that holds the lock of the loaded set, and whether it has seen the flag clear. -/
def Call.recording : Call → Option Bool
  | .load _ _ (.recordLocked _) => some false
  | .load _ _ (.recordChecked _) => some true
  | .holding next => next.recording
  | _ => none

/-- A shutdown of the application that has set its flag. -/
def Call.fences : Call → Bool
  | .shutdown .application (.called _) => false
  | .shutdown .application _ => true
  | .holding next => next.fences
  | _ => false

/-- A shutdown of the application that has cleared the loaded set. -/
def Call.hasCleared : Call → Bool
  | .shutdown .application (.cleared _) => true
  | .holding next => next.hasCleared
  | _ => false

theorem Call.fences_of_has_cleared {call : Call} (h : call.hasCleared = true) :
    call.fences = true := by
  induction call with
  | shutdown origin pc =>
      cases origin with
      | direct => cases h
      | application =>
          cases pc with
          | cleared => rfl
          | _ => cases h
  | holding next ih => exact ih h
  | _ => cases h

/-- What the loaded set and its lock have to do with the calls. -/
structure Recorded (s : State) : Prop where
  locked : ∀ task checked, (s.calls task).recording = some checked → s.loadedLock = some task
  fenced : ∀ task, (s.calls task).fences = true → s.shuttingDown = true
  cleared : ∀ task, (s.calls task).hasCleared = true →
    (∀ id, s.loaded id = false) ∧ ∀ other, (s.calls other).recording ≠ some true

/-- While the lock of the loaded set is free nobody records. -/
theorem Recorded.free {s : State} (hs : Recorded s) (hfree : s.loadedLock = none) (task : Nat) :
    (s.calls task).recording = none := by
  cases hrecording : (s.calls task).recording with
  | none => rfl
  | some checked => exact absurd (hs.locked task checked hrecording) (by simp [hfree])

theorem Recorded.sole {s : State} (hs : Recorded s) {task other : Nat} {checked : Bool}
    (hother : other ≠ task) (h : (s.calls task).recording = some checked) :
    (s.calls other).recording = none := by
  cases hrecording : (s.calls other).recording with
  | none => rfl
  | some checked' =>
      have hlock := (hs.locked other checked' hrecording).symm.trans (hs.locked task checked h)
      exact absurd (Option.some.inj hlock) hother

/-- A step of a call outside the lock of the loaded set. -/
theorem Recorded.call {s s' : State} (hs : Recorded s) (task : Nat)
    (hothers : ∀ other, other ≠ task → s'.calls other = s.calls other)
    (hrecording : (s'.calls task).recording = none)
    (hfences : (s'.calls task).fences = true → (s.calls task).fences = true)
    (hcleared : (s'.calls task).hasCleared = true → (s.calls task).hasCleared = true)
    (hloaded : s'.loaded = s.loaded) (hlock : s'.loadedLock = s.loadedLock)
    (hflag : s'.shuttingDown = s.shuttingDown) : Recorded s' where
  locked := by
    intro other checked hother
    by_cases hsame : other = task
    · subst hsame
      simp [hrecording] at hother
    · rw [hothers other hsame] at hother
      rw [hlock]
      exact hs.locked other checked hother
  fenced := by
    intro other hother
    rw [hflag]
    by_cases hsame : other = task
    · subst hsame
      exact hs.fenced other (hfences hother)
    · rw [hothers other hsame] at hother
      exact hs.fenced other hother
  cleared := by
    intro other hother
    have hbefore : (s.calls other).hasCleared = true := by
      by_cases hsame : other = task
      · subst hsame
        exact hcleared hother
      · rwa [hothers other hsame] at hother
    obtain ⟨hempty, hnobody⟩ := hs.cleared other hbefore
    rw [hloaded]
    refine ⟨hempty, ?_⟩
    intro third hthird
    by_cases hsame : third = task
    · subst hsame
      simp [hrecording] at hthird
    · rw [hothers third hsame] at hthird
      exact hnobody third hthird

theorem Section.recording {inner : Inner} {call next : Call} {taken : Nat} {updates : List Update}
    (h : Section inner call taken updates next) :
    next.recording = none ∧ (next.fences = true → call.fences = true) ∧
      (next.hasCleared = true → call.hasCleared = true) := by
  cases h with
  | @shutdown origin => cases origin <;> exact ⟨rfl, fun h => h, fun h => by cases h⟩
  | _ => exact ⟨rfl, fun h => (by cases h), fun h => by cases h⟩

theorem Move.recording {inner inner' : Inner} {call next : Call} (h : Move inner call inner' next) :
    next.recording = none ∧ (next.fences = true → call.fences = true) ∧
      (next.hasCleared = true → call.hasCleared = true) := by
  cases h with
  | @completed origin | @abandoned origin | @droppedShutdown origin =>
      cases origin <;> exact ⟨rfl, fun h => h, fun h => by cases h⟩
  | @releasePermit origin id key ending =>
      by_cases hrecord : origin = .application ∧ ending.isOk
      · simp [hrecord, Call.recording, Call.fences, Call.hasCleared]
      · simp [hrecord, Call.recording, Call.fences, Call.hasCleared]
  | _ => exact ⟨rfl, fun h => (by cases h), fun h => by cases h⟩

/-- The loaded set is about what the calls do with it. -/
theorem Recorded.congr {s s' : State} (hs : Recorded s)
    (hrecording : ∀ task, (s'.calls task).recording = (s.calls task).recording)
    (hfences : ∀ task, (s'.calls task).fences = (s.calls task).fences)
    (hcleared : ∀ task, (s'.calls task).hasCleared = (s.calls task).hasCleared)
    (hlock : s'.loadedLock = s.loadedLock) (hflag : s'.shuttingDown = s.shuttingDown)
    (hloaded : ∀ id, s.loaded id = false → s'.loaded id = false) : Recorded s' where
  locked := by
    intro task checked h
    rw [hlock]
    exact hs.locked task checked (hrecording task ▸ h)
  fenced := by
    intro task h
    rw [hflag]
    exact hs.fenced task (hfences task ▸ h)
  cleared := by
    intro task h
    obtain ⟨hempty, hnobody⟩ := hs.cleared task (hcleared task ▸ h)
    refine ⟨fun id => hloaded id (hempty id), ?_⟩
    intro other
    rw [hrecording]
    exact hnobody other

theorem recorded_preserved : Transition.Preserves Next Recorded := by
  rintro s s' hs ⟨actor, hstep⟩
  have hothers : ∀ {task : Nat} {call : Call} (other : Nat), other ≠ task →
      (s.withCall task call).calls other = s.calls other := by
    intro task call other hother
    simp [State.withCall, hother]
  have hself : ∀ (task : Nat) (call : Call), (s.withCall task call).calls task = call := by
    intro task call
    simp [State.withCall]
  obtain ⟨hlocked, hfenced, hcleared⟩ := id hs
  cases hstep with
  | @enter _ task taken updates next hfree h =>
      obtain ⟨hrecording, hfences, hcleared⟩ := h.recording
      refine hs.call task hothers ?_ ?_ ?_ rfl rfl rfl <;> rw [hself]
      · exact hrecording
      · exact hfences
      · exact hcleared
  | @leave _ task next h hcall =>
      -- To leave the lock changes none of the three facts about a call.
      have hsame : ∀ {α : Type} (f : Call → α), f (.holding next) = f next →
          ∀ other, f ((s.withCall task next).calls other) = f (s.calls other) := by
        intro α f hf other
        by_cases hother : other = task
        · subst hother
          rw [hself, hcall, hf]
        · rw [hothers other hother]
      exact hs.congr (hsame _ rfl) (hsame _ rfl) (hsame _ rfl) rfl rfl fun _ h => h
  | @move _ task inner next h =>
      obtain ⟨hrecording, hfences, hcleared⟩ := h.recording
      refine hs.call task hothers ?_ ?_ ?_ rfl rfl rfl <;> rw [hself]
      · exact hrecording
      · exact hfences
      · exact hcleared
  | @begin _ task call h hcall =>
      refine hs.call task hothers ?_ ?_ ?_ rfl rfl rfl <;> rw [hself]
      · cases hcall <;> rfl
      · cases hcall with
        | shutdown origin => cases origin <;> exact fun h => by cases h
        | _ => exact fun h => by cases h
      · cases hcall with
        | shutdown origin => cases origin <;> exact fun h => by cases h
        | _ => exact fun h => by cases h
  | @lockLoaded _ task origin id key h hfree =>
      have hnobody := hs.free hfree
      constructor <;> simp only [State.withCall, Function.update_apply] <;>
        grind [Call.recording, Call.fences, Call.hasCleared]
  | @recordFenced _ task origin id key h hfence =>
      -- Whoever records holds the lock of the application, so nobody else does.
      have hsole : ∀ other, other ≠ task → (s.calls other).recording = none := by
        intro other hother
        have hmine : (s.calls task).recording = some false := by rw [h]; rfl
        exact hs.sole hother hmine
      constructor <;> simp only [State.withCall, Function.update_apply] <;>
        grind [Call.recording, Call.fences, Call.hasCleared]
  | @recordOpen _ task origin id key h hopen =>
      have hfences : ∀ task, (s.calls task).hasCleared = true → (s.calls task).fences = true :=
        fun _ => Call.fences_of_has_cleared
      constructor <;> simp only [State.withCall, Function.update_apply] <;>
        grind [Call.recording, Call.fences, Call.hasCleared]
  | @record _ task origin id key h =>
      have hsole : ∀ other, other ≠ task → (s.calls other).recording = none := by
        intro other hother
        have hmine : (s.calls task).recording = some true := by rw [h]; rfl
        exact hs.sole hother hmine
      constructor <;> simp only [State.withCall, Function.update_apply] <;>
        grind [Call.recording, Call.fences, Call.hasCleared]
  | @fenceApplication _ task deadline h =>
      constructor <;> simp only [State.withCall, Function.update_apply] <;>
        grind [Call.recording, Call.fences, Call.hasCleared]
  | @clearLoaded _ task result h hfree =>
      -- The records are cleared under the lock, while nobody is recording.
      have hnobody := hs.free hfree
      constructor <;> simp only [State.withCall, Function.update_apply] <;>
        grind [Call.recording, Call.fences, Call.hasCleared]
  | unloadRecord id hfree =>
      refine hs.congr (fun _ => rfl) (fun _ => rfl) (fun _ => rfl) rfl rfl ?_
      intro id' h
      simp only [Function.update_apply]
      split
      · rfl
      · exact h
  | write | finish | finishEnter | finishLeave | tick | lease =>
      exact hs.congr (fun _ => rfl) (fun _ => rfl) (fun _ => rfl) rfl rfl fun _ h => h

/-! ## Whole runs -/

/-- What holds of the shutdown in every state of a run. -/
structure Fencing (s : State) : Prop where
  fenced : Fenced s
  flown : Flown s
  returned : Returned s
  recorded : Recorded s

theorem fencing_initial : Fencing initial where
  fenced := fenced_initial
  flown := by
    constructor <;> rintro _ <;> simp [initial, Inner.new]
  returned := by
    intro task result h
    cases h
  recorded := by
    constructor
    · intro task checked h
      cases h
    · intro task h
      cases h
    · intro task h
      cases h

theorem fencing_preserved : Transition.Preserves Next Fencing := by
  intro s s' hs hnext
  obtain ⟨actor, hstep⟩ := id hnext
  exact ⟨fenced_preserved hs.fenced hnext, flown_preserved hs.fenced hs.flown hstep,
    returned_preserved hs.flown hs.fenced hs.returned hstep, recorded_preserved hs.recorded hnext⟩

/-- A published result finds the registries in their terminal state. -/
theorem Fencing.terminal {s : State} (hs : Fencing s) {flight : ShutdownFlight} {result : Bool}
    (hflight : s.inner.flight = some flight) (hresult : flight.completion = some result) :
    Terminal s.inner.registry := by
  have htask := hs.flown.published flight result hflight hresult
  have hcleared : clearance flight.task = 3 := by rw [htask]; rfl
  exact ⟨hs.flown.emptied flight hflight (by omega), hs.flown.unlisted flight hflight (by omega),
    hs.flown.stopped flight hflight (by omega)⟩

/-- A published result stays published. -/
theorem Fencing.published_run {s s' : State} (hs : Fencing s) (hrun : Transition.Run Next s s')
    {flight : ShutdownFlight} {result : Bool} (hflight : s.inner.flight = some flight)
    (hresult : flight.completion = some result) :
    ∃ flight', s'.inner.flight = some flight' ∧ flight'.completion = some result := by
  induction hrun with
  | refl => exact ⟨flight, hflight, hresult⟩
  | tail hbelow hlast ih =>
      obtain ⟨flight₁, hflight₁, hresult₁⟩ := ih
      obtain ⟨actor, hstep⟩ := hlast
      have hs₁ := fencing_preserved.run hbelow hs
      have hlanded : landed flight₁.task = true := by
        rw [hs₁.flown.published flight₁ result hflight₁ hresult₁]
        rfl
      obtain ⟨flight₂, hflight₂, _, hcompletion⟩ :=
        landed_step hs₁.fenced hstep hflight₁ hlanded
      exact ⟨flight₂, hflight₂, hcompletion.trans hresult₁⟩

/-- A shutdown of the application that has returned takes no further step. -/
theorem cleared_step {s s' : State} {actor : Actor} (hstep : Step actor s s') {task : Nat}
    {result : Bool} (h : s.calls task = .shutdown .application (.cleared result)) :
    s'.calls task = .shutdown .application (.cleared result) := by
  have hother : ∀ {actor : Nat} {call : Call}, actor ≠ task →
      (s.withCall actor call).calls task = .shutdown .application (.cleared result) := by
    intro actor call hne
    simpa [State.withCall, Ne.symm hne] using h
  cases hstep with
  | enter hfree hsection =>
      refine hother ?_
      rintro rfl
      rw [h] at hsection
      cases hsection
  | move hmove =>
      refine hother ?_
      rintro rfl
      rw [h] at hmove
      cases hmove
  | leave _ hcall | begin hcall _ | lockLoaded hcall _ | recordFenced hcall _
  | recordOpen hcall _ | record hcall | fenceApplication hcall | clearLoaded hcall _ =>
      refine hother ?_
      rintro rfl
      cases h.symm.trans hcall
  | write | finish | finishEnter | finishLeave | unloadRecord | tick | lease => exact h

/-- A shutdown of the application that has returned keeps the loaded set empty. -/
theorem Recorded.cleared_run {s s' : State} (hs : Recorded s) (hrun : Transition.Run Next s s')
    {task : Nat} {result : Bool} (h : s.calls task = .shutdown .application (.cleared result)) :
    ∀ id, s'.loaded id = false := by
  have hstays : s'.calls task = .shutdown .application (.cleared result) := by
    induction hrun with
    | refl => exact h
    | tail hbelow hlast ih =>
        obtain ⟨actor, hstep⟩ := hlast
        exact cleared_step hstep ih
  exact ((recorded_preserved.run hrun hs).cleared task (by rw [hstays]; rfl)).1

/-- For every run: once the fence is set, nothing is admitted and no model is published; all
shutdowns that have returned agree; they return true only if no work was admitted at some moment
behind the fence; the deadline of the flight never moves later; a published result finds the
registries empty and the lifecycle stopped, for good; and a shutdown of the application that has
returned finds its loaded set empty, for good. -/
theorem shutdown_fence {s : State} (hrun : Transition.Run Next initial s) :
    (s.inner.registry.draining = true → ∀ s', Transition.Run Next s s' → Closed s s') ∧
    (∀ task task' result result', (s.calls task).verdict = some result →
      (s.calls task').verdict = some result' → result = result') ∧
    (∀ task, (s.calls task).verdict = some true →
      ∃ moment, Transition.Run Next initial moment ∧ Transition.Run Next moment s ∧
        moment.inner.registry.draining = true ∧ moment.inner.admitted = 0) ∧
    (∀ flight, s.inner.flight = some flight → ∀ s', Transition.Run Next s s' →
      ∃ flight', s'.inner.flight = some flight' ∧ NotLater flight.deadline flight'.deadline) ∧
    (∀ flight result, s.inner.flight = some flight → flight.completion = some result →
      ∀ s', Transition.Run Next s s' → Terminal s'.inner.registry) ∧
    ∀ task result, s.calls task = .shutdown .application (.cleared result) →
      ∀ s', Transition.Run Next s s' → ∀ id, s'.loaded id = false := by
  have hs := fencing_preserved.run hrun fencing_initial
  refine ⟨?_, ?_, ?_, ?_, ?_, ?_⟩
  · intro hdraining s' hafter
    exact hs.fenced.closed_run hdraining hafter
  · intro task task' result result' hresult hresult'
    exact (hs.returned task result hresult).unique hs.flown (hs.returned task' result' hresult')
  · intro task hresult
    obtain ⟨flight, hflight, hdecided⟩ := hs.returned task true hresult
    rcases hdecided with hcompletion | ⟨_, hfalse⟩
    · refine drained_moment fenced_initial rfl hrun flight hflight ?_
      rw [hs.flown.published flight true hflight hcompletion]
      rfl
    · cases hfalse
  · intro flight hflight s' hafter
    exact deadline_run hs.fenced hafter hflight
  · intro flight result hflight hresult s' hafter
    obtain ⟨flight', hflight', hresult'⟩ := hs.published_run hafter hflight hresult
    exact (fencing_preserved.run hafter hs).terminal hflight' hresult'
  · intro task result hcleared s' hafter
    exact hs.recorded.cleared_run hafter hcleared

/-- A shutdown of the application while nothing is admitted. -/
theorem shutdown_fence_idle :
    ∃ s, Transition.Run Next initial s ∧
      s.calls 0 = .shutdown .application (.cleared true) ∧
      Terminal s.inner.registry ∧ ∀ id, s.loaded id = false := by
  have h : Transition.Run Next initial _ :=
    .single ⟨.call 0, .begin rfl (.shutdown .application (some 5))⟩
  replace h := h.tail ⟨.call 0, .fenceApplication rfl⟩
  replace h := h.tail ⟨.call 0, .enter rfl .shutdown⟩
  replace h := h.tail ⟨.call 0, .write rfl⟩
  replace h := h.tail ⟨.call 0, .write rfl⟩
  replace h := h.tail ⟨.call 0, .write rfl⟩
  replace h := h.tail ⟨.call 0, .write rfl⟩
  replace h := h.tail ⟨.call 0, .leave rfl rfl⟩
  replace h := h.tail ⟨.finisher, .finish rfl (.drainedAtOnce rfl)⟩
  replace h := h.tail ⟨.finisher, .finish rfl (.graceful rfl)⟩
  replace h := h.tail ⟨.finisher, .finish rfl (.fence rfl)⟩
  replace h := h.tail ⟨.finisher, .finish rfl (.coordinate rfl)⟩
  replace h := h.tail ⟨.finisher, .finish rfl (.abortSchedulers rfl)⟩
  replace h := h.tail ⟨.finisher, .finish rfl (.aborted rfl)⟩
  replace h := h.tail ⟨.finisher, .finishEnter rfl rfl rfl⟩
  replace h := h.tail ⟨.finisher, .write rfl⟩
  replace h := h.tail ⟨.finisher, .write rfl⟩
  replace h := h.tail ⟨.finisher, .finishLeave rfl rfl rfl⟩
  replace h := h.tail ⟨.finisher, .finish rfl (.clearHealth rfl)⟩
  replace h := h.tail ⟨.finisher, .finish rfl (.stop rfl)⟩
  replace h := h.tail ⟨.finisher, .finish rfl (.publish rfl)⟩
  replace h := h.tail ⟨.call 0, .move (.completed rfl rfl)⟩
  replace h := h.tail ⟨.call 0, .clearLoaded rfl rfl⟩
  obtain ⟨_, _, _, _, hterminal, hloaded⟩ := shutdown_fence h
  exact ⟨_, h, rfl, hterminal _ _ rfl rfl _ .refl, hloaded 0 true rfl _ .refl⟩

end EmbeddingServer.Lifecycle
