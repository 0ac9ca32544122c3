import EmbeddingServer.Runtime.RegistryCoherence
import EmbeddingServer.Runtime.ShutdownFence
import Mathlib.Data.Set.Card

/-!
# What health says about the runtime

`readiness` and `model_counts` are what the health routes, the status page and the gRPC health
service show. A model map has keys below the key counter only, so the aggregates range over these.
`readiness_truthful` compares them with the registries in every state of every run of the lifecycle
machine: before the fence ready means that a model can be used, behind it that never again.
-/

namespace EmbeddingServer

/-- `Readiness`. -/
structure Readiness where
  state : LifecycleState
  reasonCode : Option ReadinessReason
  deriving DecidableEq, Repr

/-- `Readiness::is_ready`. -/
def Readiness.isReady (readiness : Readiness) : Bool :=
  readiness.state = .ready && readiness.reasonCode.isNone

/-- `ReadinessReason::code`. -/
def ReadinessReason.code : ReadinessReason → String
  | .starting => "starting"
  | .noModelsConfigured => "no_models_configured"
  | .noReadyModels => "no_ready_models"
  | .draining => "draining"
  | .stopped => "stopped"
  | .healthStateUnavailable => "health_state_unavailable"

namespace HealthState

/-- The states of the models whose keys are below a bound. -/
def entries (health : HealthState) (bound : ModelKey) : List ModelState :=
  (List.range bound).filterMap health.models

/-- `HealthRegistry::model_counts`. -/
def modelCounts (health : HealthState) (bound : ModelKey) : Nat × Nat :=
  (((health.entries bound).filter fun model => model = .ready).length,
    (health.entries bound).length)

/-- `HealthRegistry::readiness`. -/
def readiness (health : HealthState) (bound : ModelKey) : Readiness :=
  let readyModels := ((health.entries bound).filter fun model => model = .ready).length
  let reasonCode :=
    match health.lifecycle with
    | .ready =>
        if (health.entries bound).isEmpty then some .noModelsConfigured
        else if readyModels = 0 then some .noReadyModels
        else health.reason
    | .starting => health.reason <|> some .starting
    | .draining => health.reason <|> some .draining
    | .stopped => health.reason <|> some .stopped
  ⟨health.lifecycle, reasonCode⟩

/-- Only a process whose lifecycle is ready is ready. -/
theorem lifecycle_of_ready {health : HealthState} {bound : ModelKey}
    (h : (health.readiness bound).isReady = true) : health.lifecycle = .ready := by
  unfold Readiness.isReady at h
  rw [Bool.and_eq_true, decide_eq_true_eq] at h
  exact h.1

/-- A process in service gives the reason that the models give. -/
theorem readiness_in_service {health : HealthState} (hlifecycle : health.lifecycle = .ready)
    (hreason : health.reason = none) (bound : ModelKey) :
    health.readiness bound =
      ⟨.ready,
        if (health.modelCounts bound).2 = 0 then some .noModelsConfigured
        else if (health.modelCounts bound).1 = 0 then some .noReadyModels else none⟩ := by
  unfold readiness modelCounts
  dsimp only
  rw [hlifecycle, hreason]
  dsimp only
  congr 1
  by_cases hempty : health.entries bound = []
  · rw [hempty]
    rfl
  · have hisEmpty : (health.entries bound).isEmpty = false := by
      rwa [List.isEmpty_eq_false_iff]
    have hlength : (health.entries bound).length ≠ 0 := by
      rwa [ne_eq, List.length_eq_zero_iff]
    rw [hisEmpty, if_neg hlength]
    rfl

/-- What a reason given by counts of ready and of loading models says. -/
theorem reason_by_counts (ready loading : Nat) :
    let reason : Option ReadinessReason :=
      if ready + loading = 0 then some .noModelsConfigured
      else if ready = 0 then some .noReadyModels else none
    (Readiness.isReady ⟨.ready, reason⟩ = true ↔ ready ≠ 0) ∧
      (reason = some .noReadyModels ↔ ready = 0 ∧ loading ≠ 0) ∧
      (reason = some .noModelsConfigured ↔ ready = 0 ∧ loading = 0) := by
  dsimp only
  by_cases hready : ready = 0
  · by_cases hloading : loading = 0
    · rw [hready, hloading]
      decide
    · rw [if_neg (by omega), if_pos hready]
      simp [Readiness.isReady, hready, hloading]
  · rw [if_neg (by omega), if_neg hready]
    simp [Readiness.isReady, hready]

/-- A process that has stopped says so. -/
theorem readiness_stopped {health : HealthState} (hlifecycle : health.lifecycle = .stopped)
    (hreason : health.reason = some .stopped) (bound : ModelKey) :
    health.readiness bound = ⟨.stopped, some .stopped⟩ := by
  unfold readiness
  dsimp only
  rw [hlifecycle, hreason]
  rfl

end HealthState

namespace Lifecycle

/-! ## The phase of the process -/

/-- The fence, and health without its models. -/
structure Phase where
  draining : Bool
  health : HealthState

/-- The phase of the registries. -/
def phaseOf (registry : Registry) : Phase :=
  ⟨registry.draining, registry.health.clearModels⟩

/-- What a write does to the phase. -/
def Update.onPhase (phase : Phase) : Update → Phase
  | .registry .drain => { phase with draining := true }
  | .registry (.transition next reason) =>
      { phase with health := phase.health.transition next reason }
  | _ => phase

theorem clear_models_transition (health : HealthState) (next : LifecycleState)
    (reason : Option ReadinessReason) :
    (health.transition next reason).clearModels = health.clearModels.transition next reason := by
  unfold HealthState.transition HealthState.clearModels
  split
  · rfl
  · split <;> rfl

theorem phase_of_on_registry (registry : Registry) (update : Update) :
    phaseOf (update.onRegistry registry) = Update.onPhase (phaseOf registry) update := by
  cases update with
  | registry update =>
      cases update with
      | transition next reason =>
          show Phase.mk _ (registry.health.transition next reason).clearModels = _
          rw [clear_models_transition]
          rfl
      | _ => rfl
  | _ => rfl

/-- The phase of settled registries depends on the phase alone. -/
theorem phase_of_settle (updates : List Update) (registry : Registry) :
    phaseOf (Monitor.settle Update.onRegistry updates registry) =
      Monitor.settle Update.onPhase updates (phaseOf registry) := by
  induction updates generalizing registry with
  | nil => rfl
  | cons update updates ih =>
      rw [Monitor.settle_cons, Monitor.settle_cons, ih, phase_of_on_registry]

/-- The write does not touch the phase. -/
def Update.phaseless : Update → Bool
  | .registry .drain | .registry (.transition _ _) => false
  | _ => true

theorem Update.on_phase_phaseless {update : Update} (h : Update.phaseless update = true)
    (phase : Phase) : Update.onPhase phase update = phase := by
  cases update with
  | registry update => cases update <;> first | rfl | cases h
  | _ => rfl

theorem settle_phaseless {updates : List Update}
    (h : ∀ update ∈ updates, Update.phaseless update = true) (phase : Phase) :
    Monitor.settle Update.onPhase updates phase = phase := by
  induction updates with
  | nil => rfl
  | cons update updates ih =>
      rw [List.forall_mem_cons] at h
      rw [Monitor.settle_cons, Update.on_phase_phaseless h.1, ih h.2]

/-- A process that is draining or has stopped, and says why. -/
def HealthState.OutOfService (health : HealthState) : Prop :=
  health.lifecycle = .draining ∨
    health.lifecycle = .stopped ∧ health.reason = some .stopped ∧ health.live = false

/-- Before the fence the process is in service, behind it out of service. -/
structure Phase.Orderly (phase : Phase) : Prop where
  service : phase.draining = false →
    phase.health.lifecycle = .ready ∧ phase.health.reason = none ∧ phase.health.live = true
  draining : phase.draining = true → HealthState.OutOfService phase.health

/-- A process that has stopped keeps saying so. -/
theorem on_phase_stopped {phase : Phase} (h : phase.health.lifecycle = .stopped) (update : Update) :
    (Update.onPhase phase update).health = phase.health := by
  cases update with
  | registry update =>
      cases update with
      | transition next reason => exact HealthState.transition_of_stopped h next reason
      | _ => rfl
  | _ => rfl

theorem settle_stopped {phase : Phase} (h : phase.health.lifecycle = .stopped)
    (updates : List Update) :
    (Monitor.settle Update.onPhase updates phase).health = phase.health := by
  induction updates generalizing phase with
  | nil => rfl
  | cons update updates ih =>
      have hsame := on_phase_stopped h update
      rw [Monitor.settle_cons, ih (by rw [hsame]; exact h), hsame]

/-- Beginning to drain leaves service. -/
theorem out_of_service_drain {phase : Phase} (h : phase.Orderly) :
    HealthState.OutOfService (phase.health.transition .draining (some .draining)) := by
  unfold HealthState.transition
  split
  · rename_i hstopped
    cases hdraining : phase.draining with
    | false =>
        have hready := (h.service hdraining).1
        rw [hstopped] at hready
        cases hready
    | true => exact h.draining hdraining
  · split
    · rename_i hrefused
      exact .inl hrefused.1
    · exact .inl rfl

/-- What a call decides to write leaves the phase alone, or sets the fence. -/
theorem Section.phase {inner : Inner} {call next : Call} {taken : Nat} {updates : List Update}
    (h : Section inner call taken updates next) :
    (∀ update ∈ updates, Update.phaseless update = true) ∨
      ∃ deadline, updates = [.registry .drain, .registry (.transition .draining (some .draining)),
        .begin, .openFlight deadline] := by
  cases h with
  | loadRefused | notReserved | notPublished | notRetracted | notRegistered | notUnloaded
  | deleted | workRefused => exact .inl fun _ hupdate => absurd hupdate List.not_mem_nil
  | loadAdmitted h =>
      obtain ⟨_, _, rfl⟩ := Inner.admit_work_some h
      exact .inl (by simp [Update.phaseless])
  | workAdmitted h =>
      obtain ⟨_, _, rfl⟩ := Inner.admit_work_some h
      exact .inl (by simp [Update.phaseless])
  | reserved h =>
      obtain ⟨_, _, _, rfl⟩ := Inner.reserve_ok h
      exact .inl (by simp [Update.phaseless])
  | published _ h =>
      obtain ⟨_, _, _, rfl⟩ := Inner.register_reserved_engine_ok h
      exact .inl (by simp [Update.phaseless])
  | unwound =>
      refine .inl ?_
      unfold Inner.dropReservation
      split <;> simp [Update.phaseless]
  | retracted h =>
      obtain ⟨_, _, _, _, rfl⟩ := Inner.unload_ok h
      exact .inl (by simp [Update.phaseless])
  | registered _ _ h =>
      obtain ⟨_, _, _, rfl⟩ := Inner.register_engine_ok h
      exact .inl (by simp [Update.phaseless])
  | unloaded h =>
      obtain ⟨_, _, _, _, rfl⟩ := Inner.unload_ok h
      exact .inl (by simp [Update.phaseless])
  | shutdown =>
      unfold Inner.beginShutdown
      split
      · exact .inl (by simp [Update.phaseless])
      · exact .inr ⟨_, rfl⟩

/-- The task of the flight leaves the phase alone, or stops the process. -/
theorem Finish.phase {clock : Nat} {inner inner' : Inner} {flight flight' : ShutdownFlight}
    (h : Finish clock inner flight inner' flight') :
    phaseOf inner'.registry = phaseOf inner.registry ∨
      phaseOf inner'.registry =
        { phaseOf inner.registry with
          health := (phaseOf inner.registry).health.transition .stopped (some .stopped) } := by
  cases h with
  | stop =>
      right
      unfold phaseOf
      dsimp only
      rw [clear_models_transition]
  | _ => exact .inl rfl

/-- The phase of the settled registries is orderly. -/
def Presented (s : State) : Prop :=
  (phaseOf s.settled).Orderly

theorem Presented.congr {s s' : State} (hs : Presented s)
    (hregistry : phaseOf s'.inner.registry = phaseOf s.inner.registry)
    (hwrites : s'.outstanding = s.outstanding) : Presented s' := by
  unfold Presented State.settled at *
  rw [phase_of_settle, hregistry, hwrites, ← phase_of_settle]
  exact hs

/-- A decision on writes that leave the phase alone. -/
theorem Presented.enter {s s' : State} (hs : Presented s) (hfree : s.admin = none)
    (hregistry : phaseOf s'.inner.registry = phaseOf s.inner.registry)
    (h : ∀ update ∈ s'.outstanding, Update.phaseless update = true) : Presented s' := by
  unfold Presented State.settled at *
  have hnone : s.outstanding = [] := by
    unfold State.outstanding
    rw [hfree]
  rw [phase_of_settle, hnone] at hs
  rw [phase_of_settle, settle_phaseless h, hregistry]
  exact hs

/-- The process is stopped while others may hold the lock. -/
theorem Presented.stop {s s' : State} (hs : Presented s)
    (hdraining : s.inner.registry.draining = true)
    (hregistry : phaseOf s'.inner.registry =
      { phaseOf s.inner.registry with
        health := (phaseOf s.inner.registry).health.transition .stopped (some .stopped) }) :
    Presented s' := by
  have hstopped := HealthState.transition_stopped (phaseOf s.inner.registry).health (some .stopped)
  have hfence : s'.settled.draining = true := by
    refine settle_draining ?_ _
    show (phaseOf s'.inner.registry).draining = true
    rw [hregistry]
    exact hdraining
  have hfenceOld : s.settled.draining = true := settle_draining hdraining _
  have hhealth : (phaseOf s'.settled).health =
      (phaseOf s.inner.registry).health.transition .stopped (some .stopped) := by
    unfold State.settled
    rw [phase_of_settle, hregistry]
    exact settle_stopped hstopped _
  refine ⟨fun h => ?_, fun _ => ?_⟩
  · have hopen : s'.settled.draining = false := h
    rw [hopen] at hfence
    cases hfence
  · rw [hhealth]
    by_cases hbefore : (phaseOf s.inner.registry).health.lifecycle = .stopped
    · have hsame : (phaseOf s.settled).health = (phaseOf s.inner.registry).health := by
        unfold State.settled
        rw [phase_of_settle]
        exact settle_stopped hbefore _
      rw [HealthState.transition_of_stopped hbefore, ← hsame]
      exact hs.draining hfenceOld
    · right
      unfold HealthState.transition
      rw [if_neg hbefore, if_neg (by simp)]
      exact ⟨rfl, rfl, rfl⟩

theorem presented_initial : Presented initial where
  service _ := ⟨rfl, rfl, rfl⟩
  draining h := by cases h

/-- Every step keeps the phase orderly. -/
theorem Presented.step {s s' : State} {actor : Actor} (hfenced : Fenced s) (hs : Presented s)
    (hstep : Step actor s s') : Presented s' := by
  cases hstep with
  | enter hfree h =>
      rcases h.phase with hphaseless | ⟨deadline, rfl⟩
      · exact hs.enter hfree rfl hphaseless
      · have hbefore : (phaseOf s.inner.registry).Orderly := by
          rw [← State.settled_of_free hfree]
          exact hs
        have hdrained := out_of_service_drain hbefore
        unfold Presented State.settled
        rw [phase_of_settle]
        exact ⟨nofun, fun _ => hdrained⟩
  | @write _ _ update updates h =>
      have hsettled : State.settled { s with
          inner := update.apply s.inner, admin := some (actor, updates) } = s.settled := by
        simp [State.settled, State.outstanding, h]
      unfold Presented
      rw [hsettled]
      exact hs
  | leave h hcall =>
      refine hs.congr rfl ?_
      unfold State.outstanding
      rw [h]
  | move h =>
      refine hs.congr ?_ rfl
      show phaseOf _ = _
      rw [h.registry]
  | finish h hfinish =>
      rcases hfinish.phase with hsame | hstop
      · exact hs.congr hsame rfl
      · exact hs.stop (hfenced.draining h) hstop
  | finishEnter hfree h htask =>
      exact hs.enter hfree rfl (by simp [State.outstanding, Inner.releaseRegistries,
        Update.phaseless])
  | finishLeave h hflight htask =>
      refine hs.congr rfl ?_
      unfold State.outstanding
      rw [h]
  | begin | lockLoaded | recordFenced | recordOpen | record | fenceApplication | clearLoaded
  | unloadRecord | tick | lease => exact hs.congr rfl rfl

/-! ## Out of service for good -/

/-- Draining or stopped. -/
def HealthState.Withdrawn (health : HealthState) : Prop :=
  health.lifecycle = .draining ∨ health.lifecycle = .stopped

theorem HealthState.OutOfService.withdrawn {health : HealthState}
    (h : HealthState.OutOfService health) : HealthState.Withdrawn health :=
  h.imp_right And.left

/-- No transition returns to service. -/
theorem HealthState.Withdrawn.transition {health : HealthState} (h : HealthState.Withdrawn health)
    (next : LifecycleState) (reason : Option ReadinessReason) :
    HealthState.Withdrawn (health.transition next reason) := by
  unfold EmbeddingServer.HealthState.transition
  split
  · exact h
  · rename_i hstopped
    have hdraining : health.lifecycle = .draining := h.resolve_right hstopped
    split
    · exact h
    · rename_i hrefused
      cases next with
      | starting => exact absurd ⟨hdraining, .inl rfl⟩ hrefused
      | ready => exact absurd ⟨hdraining, .inr rfl⟩ hrefused
      | draining => exact .inl rfl
      | stopped => exact .inr rfl

theorem withdrawn_on_phase {phase : Phase} (h : HealthState.Withdrawn phase.health)
    (update : Update) : HealthState.Withdrawn (Update.onPhase phase update).health := by
  cases update with
  | registry update =>
      cases update with
      | transition next reason => exact h.transition next reason
      | _ => exact h
  | _ => exact h

/-- A process that is out of service stays so. -/
theorem withdrawn_preserved : Transition.Preserves Next fun s =>
    HealthState.Withdrawn (phaseOf s.inner.registry).health := by
  intro s s' h hnext
  obtain ⟨actor, hstep⟩ := hnext
  cases hstep with
  | @write _ _ update updates hadmin =>
      dsimp only
      rw [Update.apply_registry, phase_of_on_registry]
      exact withdrawn_on_phase h update
  | move hmove =>
      show HealthState.Withdrawn (phaseOf _).health
      rw [hmove.registry]
      exact h
  | finish hflight hfinish =>
      show HealthState.Withdrawn (phaseOf _).health
      rcases hfinish.phase with hsame | hstop
      · rw [hsame]
        exact h
      · rw [hstop]
        exact h.transition .stopped _
  | enter | leave | finishEnter | finishLeave | begin | lockLoaded | recordFenced | recordOpen
  | record | fenceApplication | clearLoaded | unloadRecord | tick | lease => exact h

/-! ## The counts -/

section

variable {registry : Registry} {bound : ModelKey}

/-- The keys below the bound whose model is in the state. -/
def keysIn (health : HealthState) (bound : ModelKey) (state : ModelState) : List ModelKey :=
  (List.range bound).filter fun key => health.models key = some state

theorem keys_in_nodup (health : HealthState) (bound : ModelKey) (state : ModelState) :
    (keysIn health bound state).Nodup :=
  List.nodup_range.filter _

/-- The ready models are counted by their keys. -/
theorem model_counts_ready (health : HealthState) (bound : ModelKey) :
    (health.modelCounts bound).1 = (keysIn health bound .ready).length := by
  unfold HealthState.modelCounts HealthState.entries keysIn
  dsimp only
  rw [← List.countP_eq_length_filter, ← List.countP_eq_length_filter, List.countP_filterMap]
  refine List.countP_congr fun key _ => ?_
  cases health.models key <;> simp

/-- Where every model is ready or loading, the total is the sum of both. -/
theorem model_counts_total {health : HealthState} (bound : ModelKey)
    (h : ∀ key state, health.models key = some state → state = .ready ∨ state = .loading) :
    (health.modelCounts bound).2 =
      (keysIn health bound .ready).length + (keysIn health bound .loading).length := by
  unfold HealthState.modelCounts HealthState.entries keysIn
  dsimp only
  rw [← List.countP_eq_length_filter, ← List.countP_eq_length_filter,
    List.length_filterMap_eq_countP]
  induction List.range bound with
  | nil => rfl
  | cons key keys ih =>
      rw [List.countP_cons, List.countP_cons, List.countP_cons, ih]
      cases hkey : health.models key with
      | none => simp
      | some state =>
          rcases h key state hkey with rfl | rfl
          · simp
            omega
          · simp
            omega

/-- Distinct keys are as many as the names that have them. -/
theorem length_eq_ncard {map : String → Option ModelKey} {keys : List ModelKey}
    (hdistinct : ∀ id id' key, map id = some key → map id' = some key → id = id')
    (hnodup : keys.Nodup) (hkeys : ∀ key, key ∈ keys ↔ ∃ id, map id = some key) :
    keys.length = Set.ncard {id | (map id).isSome = true} := by
  rw [← List.toFinset_card_of_nodup hnodup, ← Set.ncard_coe_finset]
  symm
  refine Set.ncard_congr (fun id hid => (map id).get hid) ?_ ?_ ?_
  · intro id hid
    rw [Finset.mem_coe, List.mem_toFinset, hkeys]
    exact ⟨id, (Option.some_get _).symm⟩
  · intro id id' hid hid' heq
    exact hdistinct id id' _ (Option.some_get hid).symm (heq ▸ (Option.some_get hid').symm)
  · intro key hkey
    rw [Finset.mem_coe, List.mem_toFinset, hkeys] at hkey
    obtain ⟨id, hid⟩ := hkey
    have hsome : (map id).isSome = true := by
      rw [hid]
      rfl
    exact ⟨id, hsome, Option.some_inj.mp ((Option.some_get hsome).trans hid)⟩

/-- The registered models of coherent registries are the ready ones. -/
theorem mem_keys_in_ready (h : registry.Coherent)
    (htaken : ∀ key, registry.Registered key ∨ registry.Reserved key → key < bound)
    (key : ModelKey) :
    key ∈ keysIn registry.health bound .ready ↔ ∃ id, registry.models id = some key := by
  unfold keysIn
  rw [List.mem_filter, List.mem_range, decide_eq_true_eq, h.health]
  constructor
  · intro hkey
    rcases hkey.2 with hregistered | hreserved
    · exact hregistered.1
    · cases hreserved.2
  · intro hkey
    exact ⟨htaken key (.inl hkey), .inl ⟨hkey, rfl⟩⟩

/-- The reservations are those that load. -/
theorem mem_keys_in_loading (h : registry.Coherent)
    (htaken : ∀ key, registry.Registered key ∨ registry.Reserved key → key < bound)
    (key : ModelKey) :
    key ∈ keysIn registry.health bound .loading ↔ ∃ id, registry.loading id = some key := by
  unfold keysIn
  rw [List.mem_filter, List.mem_range, decide_eq_true_eq, h.health]
  constructor
  · intro hkey
    rcases hkey.2 with hregistered | hreserved
    · cases hregistered.2
    · exact hreserved.1
  · intro hkey
    exact ⟨htaken key (.inr hkey), .inr ⟨hkey, rfl⟩⟩

/-- No key is listed for a map without entries. -/
theorem keys_eq_nil_iff {map : String → Option ModelKey} {keys : List ModelKey}
    (hkeys : ∀ key, key ∈ keys ↔ ∃ id, map id = some key) :
    keys.length = 0 ↔ ∀ id, map id = none := by
  rw [List.length_eq_zero_iff, List.eq_nil_iff_forall_not_mem]
  constructor
  · intro h id
    cases hid : map id with
    | none => rfl
    | some key => exact absurd ((hkeys key).mpr ⟨id, hid⟩) (h key)
  · intro h key hkey
    obtain ⟨id, hid⟩ := (hkeys key).mp hkey
    rw [h id] at hid
    cases hid

/-- Coherent registries have ready and loading models only. -/
theorem coherent_total (h : registry.Coherent) :
    (registry.health.modelCounts bound).2 =
      (keysIn registry.health bound .ready).length +
        (keysIn registry.health bound .loading).length :=
  model_counts_total bound fun key state hstate =>
    ((h.health key state).mp hstate).imp And.right And.right

end

/-! ## Whole runs -/

/-- What holds of health in every state of a run. -/
structure Shown (s : State) : Prop where
  fencing : Fencing s
  orderly : Orderly s
  presented : Presented s

theorem shown_initial : Shown initial :=
  ⟨fencing_initial, orderly_initial, presented_initial⟩

theorem shown_preserved : Transition.Preserves Next Shown := by
  intro s s' hs hnext
  refine ⟨fencing_preserved hs.fencing hnext, orderly_preserved hs.orderly hnext, ?_⟩
  obtain ⟨actor, hstep⟩ := hnext
  exact hs.presented.step hs.fencing.fenced hstep

/-- `HealthRegistry::readiness` of the runtime. -/
def State.readiness (s : State) : Readiness :=
  s.inner.registry.health.readiness s.inner.nextKey

/-- Once the fence is set and its writes are done, the process is never ready again. -/
theorem Shown.never_ready {s s' : State} (hs : Shown s) (hfree : s.admin = none)
    (hdraining : s.inner.registry.draining = true) (hafter : Transition.Run Next s s') :
    s'.readiness.isReady = false := by
  have hpresented := hs.presented
  unfold Presented at hpresented
  rw [State.settled_of_free hfree] at hpresented
  have hwithdrawn := withdrawn_preserved.run hafter (hpresented.draining hdraining).withdrawn
  cases hready : s'.readiness.isReady with
  | false => rfl
  | true =>
      have hlifecycle := HealthState.lifecycle_of_ready hready
      rcases hwithdrawn with hdrain | hstop
      · cases hlifecycle.symm.trans hdrain
      · cases hlifecycle.symm.trans hstop

/-- Health tells the truth. Before the fence, while nobody changes the registries, the counts are
those of the registered and of the loading models, and the process is ready exactly if a model is
registered; else it says whether one is loading. Once the fence is set and the shutdown has left
the lock the process is never ready again; in between, until the state is written, it still is.
After the result of the shutdown is published it is stopped, not live and without models. -/
theorem readiness_truthful {s : State} (hrun : Transition.Run Next initial s) :
    (s.admin = none → s.inner.registry.draining = false →
      (s.inner.registry.health.modelCounts s.inner.nextKey).1 =
        Set.ncard {id | (s.inner.registry.models id).isSome = true} ∧
      (s.inner.registry.health.modelCounts s.inner.nextKey).2 =
        Set.ncard {id | (s.inner.registry.models id).isSome = true} +
          Set.ncard {id | (s.inner.registry.loading id).isSome = true} ∧
      (s.readiness.isReady = true ↔ ∃ id key, s.inner.registry.models id = some key) ∧
      (s.readiness.reasonCode = some .noReadyModels ↔
        (∀ id, s.inner.registry.models id = none) ∧
          ∃ id key, s.inner.registry.loading id = some key) ∧
      (s.readiness.reasonCode = some .noModelsConfigured ↔
        ∀ id, s.inner.registry.models id = none ∧ s.inner.registry.loading id = none)) ∧
    (s.admin = none → s.inner.registry.draining = true →
      ∀ s', Transition.Run Next s s' → s'.readiness.isReady = false) ∧
    (∀ flight result, s.inner.flight = some flight → flight.completion = some result →
      ∀ s', Transition.Run Next s s' → s'.readiness = ⟨.stopped, some .stopped⟩ ∧
        s'.inner.registry.health.live = false ∧
        s'.inner.registry.health.modelCounts s'.inner.nextKey = (0, 0)) := by
  have hs := shown_preserved.run hrun shown_initial
  refine ⟨?_, ?_, ?_⟩
  · intro hfree hopen
    -- Nobody is writing, so the registry is what the writes begun so far make of it.
    have hregistry := State.settled_of_free hfree
    have hpresented := hs.presented
    unfold Presented at hpresented
    rw [hregistry] at hpresented
    have hsound := hs.orderly.sound (by rw [hregistry]; exact hopen)
    have hcoherent : s.inner.registry.Coherent := hregistry ▸ hsound.coherent
    have htaken := hregistry ▸ hsound.taken
    have hready := mem_keys_in_ready hcoherent htaken
    have hloading := mem_keys_in_loading hcoherent htaken
    have hreadyZero := keys_eq_nil_iff hready
    have hloadingZero := keys_eq_nil_iff hloading
    obtain ⟨hlifecycle, hreason, _⟩ := hpresented.service hopen
    have hservice : s.readiness = _ := @HealthState.readiness_in_service
      s.inner.registry.health hlifecycle hreason s.inner.nextKey
    rw [hservice, model_counts_ready, coherent_total hcoherent]
    -- The reason is a function of the two counts, and a count is zero if its registry is empty.
    have hreasons := HealthState.reason_by_counts
      (keysIn s.inner.registry.health s.inner.nextKey .ready).length
      (keysIn s.inner.registry.health s.inner.nextKey .loading).length
    dsimp only at hreasons
    refine ⟨length_eq_ncard hcoherent.models_distinct (keys_in_nodup _ _ _) hready, ?_, ?_, ?_, ?_⟩
    · rw [length_eq_ncard hcoherent.models_distinct (keys_in_nodup _ _ _) hready,
        length_eq_ncard hcoherent.loading_distinct (keys_in_nodup _ _ _) hloading]
    · rw [hreasons.1, ne_eq, hreadyZero, not_forall]
      exact exists_congr fun id => Option.ne_none_iff_exists'
    · rw [hreasons.2.1, hreadyZero, ne_eq, hloadingZero, not_forall]
      exact and_congr_right fun _ => exists_congr fun id => Option.ne_none_iff_exists'
    · rw [hreasons.2.2, hreadyZero, hloadingZero, forall_and]
  · intro hfree hdraining s' hafter
    exact hs.never_ready hfree hdraining hafter
  · intro flight result hflight hresult s' hafter
    have hs' := shown_preserved.run hafter hs
    obtain ⟨flight', hflight', hresult'⟩ := hs.fencing.published_run hafter hflight hresult
    have hterminal := hs'.fencing.terminal hflight' hresult'
    have hstopped : (phaseOf s'.inner.registry).health.lifecycle = .stopped := hterminal.lifecycle
    -- What is still to be written does not bring a stopped process back.
    have hsettled : (phaseOf s'.settled).health = (phaseOf s'.inner.registry).health := by
      unfold State.settled
      rw [phase_of_settle]
      exact settle_stopped hstopped _
    have hdraining : s'.settled.draining = true :=
      settle_draining (hs'.fencing.fenced.draining hflight') _
    have hout := hs'.presented.draining hdraining
    rw [hsettled] at hout
    rcases hout with hdrain | hstop
    · cases hstopped.symm.trans hdrain
    · have hreason : s'.inner.registry.health.reason = some .stopped := hstop.2.1
      refine ⟨HealthState.readiness_stopped hterminal.lifecycle hreason _, hstop.2.2, ?_⟩
      have hentries : s'.inner.registry.health.entries s'.inner.nextKey = [] := by
        unfold HealthState.entries
        rw [List.filterMap_eq_nil_iff]
        exact fun key _ => hterminal.health key
      unfold HealthState.modelCounts
      rw [hentries]
      rfl

/-- A process with one model that was registered. -/
theorem readiness_truthful_registered :
    ∃ s, Transition.Run Next initial s ∧ s.admin = none ∧ s.readiness.isReady = true := by
  have h : Transition.Run Next initial _ := .single ⟨.call 0, .begin rfl (.register "m")⟩
  replace h := h.tail ⟨.call 0, .enter rfl (.registered (by decide) false rfl)⟩
  replace h := h.tail ⟨.call 0, .write rfl⟩
  replace h := h.tail ⟨.call 0, .write rfl⟩
  replace h := h.tail ⟨.call 0, .write rfl⟩
  replace h := h.tail ⟨.call 0, .write rfl⟩
  replace h := h.tail ⟨.call 0, .leave rfl rfl⟩
  exact ⟨_, h, rfl, ((readiness_truthful h).1 rfl rfl).2.2.1.mpr ⟨"m", 1, rfl⟩⟩

end Lifecycle

end EmbeddingServer
