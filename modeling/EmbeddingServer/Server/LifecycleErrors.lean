import EmbeddingServer.Onnx.OverLength
import EmbeddingServer.Runtime.RegistryCoherence
import EmbeddingServer.Server.Application

/-!
# Errors of lifecycle calls

A call that fails before its transition leaves the registries and the set `loaded` as they were,
and a transition changes them by one model. The reply is made after the transition, so a store
that cannot be inspected turns a transition that was made into an error. Through all of this the
set `loaded` is the set of registered models.
-/

namespace EmbeddingServer

/-! ## The runtime -/

namespace Inner

variable {inner : Inner} {id : String} {key : ModelKey} {outcome : LoadOutcome}

/-- The keys that will be taken from the counter are not in use. -/
def Fresh (inner : Inner) : Prop :=
  ∀ key, inner.nextKey ≤ key → inner.registry.Untraced key

@[simp]
theorem write_next_key (inner : Inner) (updates : List Update) :
    (inner.write updates).nextKey = inner.nextKey := by
  induction updates generalizing inner with
  | nil => rfl
  | cons update rest ih => exact (ih _).trans (Update.apply_next_key inner update)

/-- Dropping a reservation that was made. -/
theorem unwind_reserved (error : LifecycleError) (huntraced : inner.registry.Untraced key)
    (hloading : inner.registry.loading id = none) :
    ((inner.write [.registry (.insertLoading id key),
      .registry (.setHealth key .loading)]).unwind id key error).2.registry = inner.registry := by
  have hown : (inner.write [.registry (.insertLoading id key),
      .registry (.setHealth key .loading)]).registry.loading id = some key :=
    Function.update_self ..
  have hmap : Function.update inner.registry.loading id none = inner.registry.loading := by
    rw [← hloading, Function.update_eq_self]
  have hhealth : Function.update inner.registry.health.models key none =
      inner.registry.health.models := by
    rw [← huntraced.health, Function.update_eq_self]
  rw [unwind, dropReservation, if_pos hown]
  simp [write, Update.apply, RegistryUpdate.apply, HealthState.setModel, HealthState.removeModel,
    hmap, hhealth]

/-- Dropping a reservation that was refused. -/
theorem unwind_refused (error : LifecycleError) (huntraced : inner.registry.Untraced key) :
    (inner.unwind id key error).2.registry = inner.registry := by
  have hhealth : Function.update inner.registry.health.models key none =
      inner.registry.health.models := by
    rw [← huntraced.health, Function.update_eq_self]
  rw [unwind, dropReservation, if_neg (huntraced.loading id)]
  simp [write, Update.apply, RegistryUpdate.apply, HealthState.removeModel, hhealth]

/-- Reserving and publishing a model. -/
theorem write_published (inner : Inner) (id : String) (key : ModelKey) :
    ((inner.write [.registry (.insertLoading id key), .registry (.setHealth key .loading)]).write
      [.accepting key true, .registry (.insertScheduler key), .registry (.insertModel id key),
        .registry (.removeLoading id), .registry (.setHealth key .ready)]).registry =
      inner.registry.withModel id key := by
  simp [write, Update.apply, RegistryUpdate.apply, HealthState.setModel, Registry.withModel]

/-- The engine comes to be and nothing stands in the way of its publication. -/
structure Publishable (inner : Inner) (id : String) (outcome : LoadOutcome) : Prop where
  running : inner.registry.draining = false
  model : inner.registry.models id = none
  reservation : inner.registry.loading id = none
  engine : outcome.engine inner.forceStop = .ok ()
  unfinished : outcome.finished = false

/-- What a load under a key of its own comes to. -/
theorem load_reserved_spec (inner : Inner) (id : String) (outcome : LoadOutcome)
    (huntraced : inner.registry.Untraced key) :
    (inner.Publishable id outcome ∧ (inner.loadReserved id key outcome).1 = .ok () ∧
      (inner.loadReserved id key outcome).2.registry = inner.registry.withModel id key) ∨
    (¬ inner.Publishable id outcome ∧
      (∃ error, (inner.loadReserved id key outcome).1 = .error error) ∧
      (inner.loadReserved id key outcome).2.registry = inner.registry) := by
  unfold loadReserved
  cases hreserve : inner.reserve id key with
  | error error =>
      refine .inr ⟨fun hpublishable => ?_, ⟨error, rfl⟩, unwind_refused error huntraced⟩
      simp [reserve, hpublishable.running, hpublishable.model, hpublishable.reservation] at hreserve
  | ok updates =>
      obtain ⟨hrunning, hmodel, hloading, rfl⟩ := reserve_ok hreserve
      dsimp only
      have hstop : (inner.write [.registry (.insertLoading id key),
          .registry (.setHealth key .loading)]).forceStop = inner.forceStop := rfl
      rw [hstop]
      cases hengine : outcome.engine inner.forceStop with
      | error error =>
          refine .inr ⟨fun hpublishable => ?_, ⟨error, rfl⟩,
            unwind_reserved error huntraced hloading⟩
          have hok := hpublishable.engine
          rw [hengine] at hok
          cases hok
      | ok =>
          dsimp only
          cases hregister : (inner.write [.registry (.insertLoading id key),
              .registry (.setHealth key .loading)]).registerReservedEngine id key
                outcome.finished with
          | error error =>
              refine .inr ⟨fun hpublishable => ?_, ⟨error, rfl⟩,
                unwind_reserved error huntraced hloading⟩
              simp [registerReservedEngine, write, Update.apply, RegistryUpdate.apply, hrunning,
                hmodel, hpublishable.unfinished] at hregister
          | ok updates =>
              obtain ⟨_, _, _, rfl⟩ := register_reserved_engine_ok hregister
              have hfinished : outcome.finished = false := by
                cases hflag : outcome.finished with
                | false => rfl
                | true =>
                    simp [registerReservedEngine, write, Update.apply, RegistryUpdate.apply,
                      hrunning, hmodel, hflag] at hregister
              exact .inl ⟨⟨hrunning, hmodel, hloading, hengine, hfinished⟩, rfl,
                write_published inner id key⟩

/-- A load takes one key from the counter at most. -/
theorem load_reserved_next_key (inner : Inner) (id : String) (key : ModelKey)
    (outcome : LoadOutcome) : (inner.loadReserved id key outcome).2.nextKey = inner.nextKey := by
  unfold loadReserved
  split
  · exact write_next_key ..
  · dsimp only
    split
    · exact (write_next_key ..).trans (write_next_key ..)
    · split
      · exact (write_next_key ..).trans (write_next_key ..)
      · exact (write_next_key ..).trans (write_next_key ..)

/-- What a load needs of the runtime and of the outside. -/
structure Loadable (inner : Inner) (id : String) (outcome : LoadOutcome) : Prop where
  executor : outcome.executor = true
  admits : inner.coordinator.shutdown = .running
  publishable : inner.Publishable id outcome

/-- What a load in the runtime comes to. -/
theorem load_with_spec (hfresh : inner.Fresh) (id : String) (outcome : LoadOutcome) :
    (inner.Loadable id outcome ∧ (inner.loadWith id outcome).1 = .ok () ∧
      (inner.loadWith id outcome).2.registry = inner.registry.withModel id inner.nextKey ∧
      (inner.loadWith id outcome).2.nextKey = inner.nextKey + 1) ∨
    (¬ inner.Loadable id outcome ∧ (∃ error, (inner.loadWith id outcome).1 = .error error) ∧
      (inner.loadWith id outcome).2.registry = inner.registry ∧
      inner.nextKey ≤ (inner.loadWith id outcome).2.nextKey) := by
  unfold loadWith
  cases hexecutor : outcome.executor with
  | false =>
      refine .inr ⟨fun hloadable => ?_, ⟨_, rfl⟩, rfl, le_refl _⟩
      rw [hloadable.executor] at hexecutor
      cases hexecutor
  | true =>
      simp only [Bool.not_true, Bool.false_eq_true, if_false]
      cases hchecked : inner.admitWork with
      | none =>
          refine .inr ⟨fun hloadable => ?_, ⟨_, rfl⟩, rfl, le_refl _⟩
          simp [admitWork, hloadable.publishable.running, hloadable.admits] at hchecked
      | some updates =>
          obtain ⟨hrunning, hadmits, rfl⟩ := admit_work_some hchecked
          let admitted : Inner :=
            { inner.write [.admitWork, .count] with nextKey := inner.nextKey + 1 }
          have hkey := load_reserved_next_key admitted id inner.nextKey outcome
          -- Admission leaves the registries and the forced stop as they are.
          have hiff : admitted.Publishable id outcome ↔ inner.Publishable id outcome :=
            ⟨fun h => ⟨h.running, h.model, h.reservation, h.engine, h.unfinished⟩,
              fun h => ⟨h.running, h.model, h.reservation, h.engine, h.unfinished⟩⟩
          have huntraced : admitted.registry.Untraced inner.nextKey :=
            hfresh inner.nextKey (le_refl _)
          cases load_reserved_spec admitted id outcome huntraced with
          | inl hok =>
              obtain ⟨hpublishable, hresult, hregistry⟩ := hok
              exact .inl ⟨⟨hexecutor, hadmits, hiff.mp hpublishable⟩, hresult, hregistry, hkey⟩
          | inr hfails =>
              obtain ⟨hnot, hresult, hregistry⟩ := hfails
              exact .inr ⟨fun hloadable => hnot (hiff.mpr hloadable.publishable), hresult,
                hregistry, by
                  show inner.nextKey ≤ (admitted.loadReserved id inner.nextKey outcome).2.nextKey
                  rw [hkey]
                  exact Nat.le_succ _⟩

/-- What an unload needs. -/
def Unloadable (inner : Inner) (id : String) (key : ModelKey) : Prop :=
  inner.registry.draining = false ∧ inner.registry.models id = some key ∧ inner.leases key = 0

/-- What an unload in the runtime comes to. -/
theorem unload_model_spec (inner : Inner) (id : String) :
    (∃ key, inner.Unloadable id key ∧ (inner.unloadModel id).1 = .ok () ∧
      (inner.unloadModel id).2.registry = inner.registry.withoutModel id key ∧
      (inner.unloadModel id).2.nextKey = inner.nextKey) ∨
    ((∀ key, ¬ inner.Unloadable id key) ∧ (∃ error, (inner.unloadModel id).1 = .error error) ∧
      (inner.unloadModel id).2 = inner) := by
  unfold unloadModel
  cases hunload : inner.unload id with
  | error error =>
      refine .inr ⟨fun key hunloadable => ?_, ⟨error, rfl⟩, rfl⟩
      obtain ⟨hrunning, hmodel, hleases⟩ := hunloadable
      simp [unload, hrunning, hmodel, hleases] at hunload
  | ok updates =>
      obtain ⟨hrunning, key, hmodel, hleases, rfl⟩ := unload_ok hunload
      exact .inl ⟨key, ⟨hrunning, hmodel, hleases⟩, rfl, rfl, rfl⟩

/-- The same registries and a counter that went on. -/
theorem Fresh.of_registry {after : Inner} (h : inner.Fresh)
    (hregistry : after.registry = inner.registry) (hnext : inner.nextKey ≤ after.nextKey) :
    after.Fresh := by
  intro key hkey
  rw [hregistry]
  exact h key (hnext.trans hkey)

theorem Fresh.load_with (h : inner.Fresh) (id : String) (outcome : LoadOutcome) :
    (inner.loadWith id outcome).2.Fresh := by
  cases load_with_spec h id outcome with
  | inr hfails => exact h.of_registry hfails.2.2.1 hfails.2.2.2
  | inl hdone =>
      obtain ⟨_, _, hregistry, hnext⟩ := hdone
      intro key hkey
      rw [hnext] at hkey
      have hne : key ≠ inner.nextKey := Nat.ne_of_gt hkey
      obtain ⟨hmodels, hloading, hschedulers, hhealth⟩ := h key (Nat.le_of_lt hkey)
      rw [hregistry]
      refine ⟨fun other => ?_, fun other => ?_, ?_, ?_⟩
      · by_cases hother : other = id
        · simp [Registry.withModel, hother, hne.symm]
        · simpa [Registry.withModel, hother] using hmodels other
      · by_cases hother : other = id
        · simp [Registry.withModel, hother]
        · simpa [Registry.withModel, hother] using hloading other
      · simpa [Registry.withModel, hne] using hschedulers
      · simpa [Registry.withModel, HealthState.setModel, hne] using hhealth

theorem Fresh.unload_model (h : inner.Fresh) (id : String) : (inner.unloadModel id).2.Fresh := by
  cases inner.unload_model_spec id with
  | inr hfails =>
      rw [hfails.2.2]
      exact h
  | inl hdone =>
      obtain ⟨gone, _, _, hregistry, hnext⟩ := hdone
      intro key hkey
      rw [hnext] at hkey
      obtain ⟨hmodels, hloading, hschedulers, hhealth⟩ := h key hkey
      rw [hregistry]
      refine ⟨fun other => ?_, hloading, ?_, ?_⟩
      · by_cases hother : other = id
        · simp [Registry.withoutModel, hother]
        · simpa [Registry.withoutModel, hother] using hmodels other
      · by_cases hgone : key = gone
        · simp [Registry.withoutModel, hgone]
        · simpa [Registry.withoutModel, hgone] using hschedulers
      · by_cases hgone : key = gone
        · simp [Registry.withoutModel, HealthState.removeModel, hgone]
        · simpa [Registry.withoutModel, HealthState.removeModel, hgone] using hhealth

end Inner

/-! ## The application -/

namespace EmbeddingApplication

variable {app : EmbeddingApplication} {id : String}

/-- The transition of an operation: none, one model more, or one model less. -/
inductive Transition (before after : EmbeddingApplication) (id : String) : Prop
  | gained (key : ModelKey) (hmodel : before.runtime.registry.models id = none)
      (hloading : before.runtime.registry.loading id = none)
      (hregistry : after.runtime.registry = before.runtime.registry.withModel id key)
      (hloaded : after.loaded = Function.update before.loaded id true)
  | lost (key : ModelKey) (hmodel : before.runtime.registry.models id = some key)
      (hregistry : after.runtime.registry = before.runtime.registry.withoutModel id key)
      (hloaded : after.loaded = Function.update before.loaded id false)

/-- The registries of the runtime and the set `loaded` are the same. -/
def Unchanged (before after : EmbeddingApplication) : Prop :=
  after.runtime.registry = before.runtime.registry ∧ after.loaded = before.loaded

/-- The transition of an operation can be made. -/
def Able (app : EmbeddingApplication) (id : String) : Operation → Prop
  | .load outcome => app.isLoaded id = false ∧ app.runtime.Loadable id outcome
  | .unload => ∃ key, app.runtime.Unloadable id key
  | .delete _ => False

/-- The operation changes the set of loaded models. -/
def Operation.changes : Operation → Bool
  | .delete _ => false
  | _ => true

/-- What an operation comes to in a running application: its transition, or an error and no
change. -/
theorem operate_spec (hfresh : app.runtime.Fresh) (hrunning : app.shuttingDown = false)
    (id : String) (operation : Operation) (hchanges : operation.changes = true) :
    (app.Able id operation ∧ (app.operate id operation).1 = .ok () ∧
      Transition app (app.operate id operation).2 id) ∨
    (¬ app.Able id operation ∧ (∃ error, (app.operate id operation).1 = .error error) ∧
      Unchanged app (app.operate id operation).2) := by
  cases operation with
  | delete answer => cases hchanges
  | unload =>
      unfold operate unloadLocked
      cases app.runtime.unload_model_spec id with
      | inl hdone =>
          obtain ⟨key, hunloadable, hresult, hregistry, _⟩ := hdone
          rw [← Prod.eta (app.runtime.unloadModel id), hresult]
          exact .inl ⟨⟨key, hunloadable⟩, rfl, .lost key hunloadable.2.1 hregistry rfl⟩
      | inr hfails =>
          obtain ⟨hnot, ⟨error, hresult⟩, hsame⟩ := hfails
          rw [← Prod.eta (app.runtime.unloadModel id), hresult, hsame]
          exact .inr ⟨fun ⟨key, hunloadable⟩ => hnot key hunloadable, ⟨_, rfl⟩, rfl, rfl⟩
  | load outcome =>
      unfold operate loadLocked
      cases hloaded : app.isLoaded id with
      | true =>
          refine .inr ⟨fun hable => ?_, ⟨_, rfl⟩, rfl, rfl⟩
          rw [hable.1] at hloaded
          cases hloaded
      | false =>
          simp only [Bool.false_eq_true, if_false]
          cases Inner.load_with_spec hfresh id outcome with
          | inl hdone =>
              obtain ⟨hloadable, hresult, hregistry, _⟩ := hdone
              rw [← Prod.eta (app.runtime.loadWith id outcome), hresult]
              simp only [hrunning, Bool.false_eq_true, if_false]
              exact .inl ⟨⟨hloaded, hloadable⟩, trivial,
                .gained _ hloadable.publishable.model hloadable.publishable.reservation
                  hregistry rfl⟩
          | inr hfails =>
              obtain ⟨hnot, ⟨error, hresult⟩, hregistry, _⟩ := hfails
              rw [← Prod.eta (app.runtime.loadWith id outcome), hresult]
              exact .inr ⟨fun hable => hnot hable.2, ⟨_, rfl⟩, hregistry, rfl⟩

/-- A transition changes something. -/
theorem Transition.not_unchanged {before after : EmbeddingApplication}
    (h : Transition before after id) : ¬ Unchanged before after := by
  rintro ⟨hregistry, _⟩
  cases h with
  | gained key hmodel _ hgained _ =>
      have hkey : (before.runtime.registry.withModel id key).models id = some key :=
        Function.update_self ..
      rw [← hgained, hregistry, hmodel] at hkey
      cases hkey
  | lost key hmodel hlost _ =>
      have hkey : (before.runtime.registry.withoutModel id key).models id = none :=
        Function.update_self ..
      rw [← hlost, hregistry, hmodel] at hkey
      cases hkey

/-- A call is atomic: an error leaves everything as it was, and a reply comes with the transition
of the model that was named. -/
def Atomic (app : EmbeddingApplication) (catalog : ModelCatalog) (store : ModelStore)
    (model : String) (operation : Operation) (inspection : Inspection) : Prop :=
  match (app.call catalog store model operation inspection).1 with
  | .error _ => Unchanged app (app.call catalog store model operation inspection).2
  | .ok _ => ∃ manifest, catalog.resolve model = some manifest ∧
      Transition app (app.call catalog store model operation inspection).2 manifest.canonicalId

/-- The store can be inspected whenever the transition is made. -/
def Inspectable (app : EmbeddingApplication) (catalog : ModelCatalog) (store : ModelStore)
    (model : String) (operation : Operation) (inspection : Inspection) : Prop :=
  ∀ manifest, catalog.resolve model = some manifest → app.shuttingDown = false →
    app.Able manifest.canonicalId operation → ∃ found, inspection.status store manifest = .ok found

/-- A call is atomic exactly when the store can be inspected after its transition. -/
theorem atomic_iff (hfresh : app.runtime.Fresh) (catalog : ModelCatalog) (store : ModelStore)
    (model : String) (operation : Operation) (hchanges : operation.changes = true)
    (inspection : Inspection) :
    app.Atomic catalog store model operation inspection ↔
      app.Inspectable catalog store model operation inspection := by
  unfold Atomic Inspectable call
  cases hresolve : catalog.resolve model with
  | none => simp [Unchanged]
  | some manifest =>
      unfold ensureRunning
      cases hrunning : app.shuttingDown with
      | true => simp [Unchanged]
      | false =>
          simp only [Bool.false_eq_true, if_false, Option.some.injEq, forall_eq', forall_const]
          cases operate_spec hfresh hrunning manifest.canonicalId operation hchanges with
          | inr hfails =>
              obtain ⟨hnot, ⟨error, hresult⟩, hsame⟩ := hfails
              rw [← Prod.eta (app.operate manifest.canonicalId operation), hresult]
              exact ⟨fun _ hable => absurd hable hnot, fun _ => hsame⟩
          | inl hdone =>
              obtain ⟨hable, hresult, htransition⟩ := hdone
              rw [← Prod.eta (app.operate manifest.canonicalId operation), hresult]
              unfold modelInfo
              cases hstatus : inspection.status store manifest with
              | error error =>
                  constructor
                  · exact fun hsame => absurd hsame htransition.not_unchanged
                  · intro hinspectable
                    obtain ⟨found, hfound⟩ := hinspectable hable
                    cases hfound
              | ok found => exact ⟨fun _ _ => ⟨found, rfl⟩, fun _ => ⟨manifest, rfl, htransition⟩⟩

/-! ## Sequences of calls -/

/-- Between two calls, requests take and return leases and are counted. -/
structure Traffic (before after : EmbeddingApplication) : Prop where
  registry : after.runtime.registry = before.runtime.registry
  nextKey : before.runtime.nextKey ≤ after.runtime.nextKey
  loaded : after.loaded = before.loaded

/-- What calls one after the other, and the traffic between them, come to. -/
inductive Serial (catalog : ModelCatalog) (store : ModelStore) : EmbeddingApplication → Prop
  | new : Serial catalog store .new
  | call {app : EmbeddingApplication} (h : Serial catalog store app) (model : String)
      (operation : Operation) (inspection : Inspection) :
      Serial catalog store (app.call catalog store model operation inspection).2
  | traffic {app after : EmbeddingApplication} (h : Serial catalog store app)
      (htraffic : Traffic app after) : Serial catalog store after

/-- The invariant of sequences of calls. -/
structure Agrees (app : EmbeddingApplication) : Prop where
  fresh : app.runtime.Fresh
  loaded : ∀ id, app.loaded id = true ↔ (app.runtime.registry.models id).isSome

theorem Agrees.new : Agrees .new := by
  refine ⟨fun key _ => ⟨fun id => ?_, fun id => ?_, rfl, ?_⟩, fun id => ?_⟩
  all_goals simp [EmbeddingApplication.new, Inner.new, HealthState.default]

/-- An operation keeps the keys of the counter unused. -/
theorem operate_fresh (hfresh : app.runtime.Fresh) (id : String) (operation : Operation) :
    (app.operate id operation).2.runtime.Fresh := by
  cases operation with
  | load outcome =>
      have hafter := hfresh.load_with id outcome
      unfold operate loadLocked
      dsimp only
      split
      · exact hfresh
      · split
        · next hresult =>
            rw [hresult] at hafter
            exact hafter
        · next hresult =>
            rw [hresult] at hafter
            split
            · exact hafter.unload_model id
            · exact hafter
  | unload =>
      have hafter := hfresh.unload_model id
      unfold operate unloadLocked
      dsimp only
      split
      · next hresult =>
          rw [hresult] at hafter
          exact hafter
      · next hresult =>
          rw [hresult] at hafter
          exact hafter
  | delete answer =>
      unfold operate deleteLocked
      dsimp only
      split <;> exact hfresh

/-- A transition changes the registered and the loaded models alike. -/
theorem Transition.agrees {before after : EmbeddingApplication} (h : Transition before after id)
    (hloaded : ∀ id, before.loaded id = true ↔ (before.runtime.registry.models id).isSome)
    (other : String) :
    after.loaded other = true ↔ (after.runtime.registry.models other).isSome := by
  cases h with
  | gained key _ _ hregistry hafter =>
      rw [hregistry, hafter]
      by_cases hother : other = id
      · simp [Registry.withModel, hother]
      · simpa [Registry.withModel, hother] using hloaded other
  | lost key _ hregistry hafter =>
      rw [hregistry, hafter]
      by_cases hother : other = id
      · simp [Registry.withoutModel, hother]
      · simpa [Registry.withoutModel, hother] using hloaded other

/-- A call keeps the two sets equal, whatever it returns. -/
theorem Agrees.call (h : app.Agrees) (catalog : ModelCatalog) (store : ModelStore) (model : String)
    (operation : Operation) (inspection : Inspection) :
    (app.call catalog store model operation inspection).2.Agrees := by
  unfold EmbeddingApplication.call
  cases catalog.resolve model with
  | none => exact h
  | some manifest =>
      unfold ensureRunning
      cases hrunning : app.shuttingDown with
      | true => exact h
      | false =>
          have hfresh := operate_fresh h.fresh manifest.canonicalId operation
          have hloaded : ∀ other,
              (app.operate manifest.canonicalId operation).2.loaded other = true ↔
                ((app.operate manifest.canonicalId operation).2.runtime.registry.models
                  other).isSome := by
            cases hchanges : operation.changes with
            | true =>
                cases operate_spec h.fresh hrunning manifest.canonicalId operation hchanges with
                | inl hdone => exact hdone.2.2.agrees h.loaded
                | inr hfails =>
                    rw [hfails.2.2.1, hfails.2.2.2]
                    exact h.loaded
            | false =>
                cases operation with
                | delete answer =>
                    unfold operate deleteLocked
                    dsimp only
                    split <;> exact h.loaded
                | load | unload => cases hchanges
          simp only [Bool.false_eq_true, if_false]
          split
          · next hresult =>
              rw [hresult] at hfresh hloaded
              exact ⟨hfresh, hloaded⟩
          · next hresult =>
              rw [hresult] at hfresh hloaded
              exact ⟨hfresh, hloaded⟩

/-- In every sequence of calls the set `loaded` is the set of registered models. -/
theorem Serial.agrees {catalog : ModelCatalog} {store : ModelStore}
    (h : Serial catalog store app) : app.Agrees := by
  induction h with
  | new => exact .new
  | call _ model operation inspection ih => exact ih.call catalog store model operation inspection
  | traffic _ htraffic ih =>
      refine ⟨ih.fresh.of_registry htraffic.registry htraffic.nextKey, fun id => ?_⟩
      rw [htraffic.loaded, htraffic.registry]
      exact ih.loaded id

/-- A load or unload is atomic exactly when the store can be inspected once its transition is
made, and in every sequence of calls the set `loaded` is the set of registered models. -/
theorem lifecycle_errors_atomic_iff (catalog : ModelCatalog) (store : ModelStore) :
    (∀ (app : EmbeddingApplication) (model : String) (operation : Operation)
      (inspection : Inspection), app.runtime.Fresh → operation.changes = true →
      (app.Atomic catalog store model operation inspection ↔
        app.Inspectable catalog store model operation inspection)) ∧
    ∀ app, Serial catalog store app → app.runtime.Fresh ∧
      ∀ id, app.loaded id = true ↔ (app.runtime.registry.models id).isSome := by
  constructor
  · intro app model operation inspection hfresh hchanges
    exact atomic_iff hfresh catalog store model operation hchanges inspection
  · intro app hserial
    exact ⟨hserial.agrees.fresh, hserial.agrees.loaded⟩

/-- A catalog with one model. -/
def loneCatalog : ModelCatalog where
  manifests id := if id = Manifest.onnx.canonicalId then some .onnx else none
  aliases _ := none
  aliasesByModel _ := none

/-- The store of the fixture. -/
def loneStore : ModelStore where
  ext := .fixture []
  trustRoot := []
  pid := 0
  attempts := 1
  task := 0

/-- Every operation of the file system fails. -/
def unreadable : Inspection where
  cache := .empty
  choices _ := { fault := .before }

/-- Every operation of the file system succeeds; nothing is installed. -/
def readable : Inspection where
  cache := .empty
  choices _ := {}

/-- A load that meets no obstacle. -/
def smooth : LoadOutcome where
  executor := true
  accepted := true
  job := .ok ()
  started := true
  finished := false

theorem able_smooth : EmbeddingApplication.new.Able Manifest.onnx.canonicalId (.load smooth) :=
  ⟨rfl, rfl, rfl, rfl, rfl, rfl, rfl, rfl⟩

theorem resolve_lone : loneCatalog.resolve Manifest.onnx.canonicalId = some .onnx := by
  decide

/-- The load of a model is made and answered with an error if the store cannot be read then. -/
theorem load_error_after_transition :
    ¬ EmbeddingApplication.new.Atomic loneCatalog loneStore Manifest.onnx.canonicalId
      (.load smooth) unreadable := by
  rw [atomic_iff Agrees.new.fresh loneCatalog loneStore _ (.load smooth) rfl]
  intro hinspectable
  obtain ⟨found, hfound⟩ := hinspectable .onnx resolve_lone rfl able_smooth
  have hfails : unreadable.status loneStore .onnx = .error (.io .other) := by decide +kernel
  rw [hfails] at hfound
  cases hfound

/-- The same load with a store that can be read. -/
theorem lifecycle_errors_atomic_readable :
    EmbeddingApplication.new.runtime.Fresh ∧
    EmbeddingApplication.new.Able Manifest.onnx.canonicalId (.load smooth) ∧
    EmbeddingApplication.new.Atomic loneCatalog loneStore Manifest.onnx.canonicalId
      (.load smooth) readable := by
  refine ⟨Agrees.new.fresh, able_smooth, ?_⟩
  refine ((lifecycle_errors_atomic_iff loneCatalog loneStore).1 .new _ (.load smooth) readable
    Agrees.new.fresh rfl).mpr ?_
  intro manifest hresolve _ _
  rw [resolve_lone] at hresolve
  cases hresolve
  exact ⟨.missing, by decide +kernel⟩

end EmbeddingApplication

end EmbeddingServer
