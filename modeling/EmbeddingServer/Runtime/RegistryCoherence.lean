import EmbeddingServer.Runtime.AdminLock

/-!
# Registry coherence

Before the shutdown fence is set, whenever the admin lock is free: no id is both registered
and loading, all keys are distinct, the scheduler map has the keys of the registered slots,
and health lists exactly the registered models as ready and the reservations as loading.

The invariant is about the registries with the outstanding writes of the lock holder made
(`settled`). Each call that took a key and has not published it claims that key: no model
is registered under it, and at most the reservation of the call itself is. Sections that
insert a key either own the claim to it or take it from the counter.
-/

namespace EmbeddingServer

/-! ## Coherent registries -/

/-- The key is that of a registered slot. -/
def Registry.Registered (registry : Registry) (key : ModelKey) : Prop :=
  ∃ id, registry.models id = some key

/-- The key is that of a loading reservation. -/
def Registry.Reserved (registry : Registry) (key : ModelKey) : Prop :=
  ∃ id, registry.loading id = some key

/-- No registry mentions the key. -/
structure Registry.Untraced (registry : Registry) (key : ModelKey) : Prop where
  models : ∀ id, registry.models id ≠ some key
  loading : ∀ id, registry.loading id ≠ some key
  schedulers : registry.schedulers key = false
  health : registry.health.models key = none

/-- Outside the key `own` every entry stays as it is. -/
structure Registry.Spares (own : Option ModelKey) (registry registry' : Registry) : Prop where
  models : ∀ id key, own ≠ some key → registry.models id = some key →
    registry'.models id = some key
  loading : ∀ id key, own ≠ some key → registry.loading id = some key →
    registry'.loading id = some key
  schedulers : ∀ key, own ≠ some key → registry'.schedulers key = registry.schedulers key
  health : ∀ key, own ≠ some key → registry'.health.models key = registry.health.models key

/-- The four registries agree. -/
structure Registry.Coherent (registry : Registry) : Prop where
  /-- The ids of models and of reservations are disjoint. -/
  disjoint : ∀ id, registry.models id = none ∨ registry.loading id = none
  /-- The keys are pairwise distinct. -/
  models_distinct : ∀ id id' key,
    registry.models id = some key → registry.models id' = some key → id = id'
  loading_distinct : ∀ id id' key,
    registry.loading id = some key → registry.loading id' = some key → id = id'
  apart : ∀ key, registry.Registered key → ¬ registry.Reserved key
  /-- The scheduler map has exactly the keys of the registered slots. -/
  schedulers : ∀ key, registry.schedulers key = true ↔ registry.Registered key
  /-- Health has exactly the registered models, ready, and the reservations, loading. -/
  health : ∀ key state, registry.health.models key = some state ↔
    (registry.Registered key ∧ state = .ready) ∨ (registry.Reserved key ∧ state = .loading)

namespace Registry

variable {registry : Registry} {id : String} {key : ModelKey}

/-- In coherent registries a key is traced only by a slot or a reservation. -/
theorem Coherent.untraced (h : registry.Coherent) (hmodels : ¬ registry.Registered key)
    (hloading : ¬ registry.Reserved key) : registry.Untraced key where
  models := fun id hid => hmodels ⟨id, hid⟩
  loading := fun id hid => hloading ⟨id, hid⟩
  schedulers := by
    have hkey := h.schedulers key
    simpa [hmodels] using hkey
  health := by
    cases hstate : registry.health.models key with
    | none => rfl
    | some state =>
        have hkey := (h.health key state).mp hstate
        simp [hmodels, hloading] at hkey

/-- The registries with a reservation. -/
def withReservation (registry : Registry) (id : String) (key : ModelKey) : Registry :=
  { registry with
    loading := Function.update registry.loading id (some key)
    health := registry.health.setModel key .loading }

/-- The registries without a reservation. -/
def withoutReservation (registry : Registry) (id : String) (key : ModelKey) : Registry :=
  { registry with
    loading := Function.update registry.loading id none
    health := registry.health.removeModel key }

/-- The registries with a model, and no reservation of its id. -/
def withModel (registry : Registry) (id : String) (key : ModelKey) : Registry :=
  { registry with
    models := Function.update registry.models id (some key)
    loading := Function.update registry.loading id none
    schedulers := Function.update registry.schedulers key true
    health := registry.health.setModel key .ready }

/-- The registries without a model. -/
def withoutModel (registry : Registry) (id : String) (key : ModelKey) : Registry :=
  { registry with
    models := Function.update registry.models id none
    schedulers := Function.update registry.schedulers key false
    health := registry.health.removeModel key }

/-- A free id and a key of its own can be reserved. -/
theorem Coherent.with_reservation (h : registry.Coherent) (hmodel : registry.models id = none)
    (hfree : registry.loading id = none) (hmodels : ¬ registry.Registered key)
    (hloading : ¬ registry.Reserved key) : (registry.withReservation id key).Coherent := by
  obtain ⟨hdisjoint, hdistinct, hdistinct', hapart, hschedulers, hhealth⟩ := h
  constructor <;>
    simp only [Registry.withReservation, HealthState.setModel, Registered, Reserved,
      Function.update_apply] at *
  all_goals grind

/-- A key that is at most reserved for the id can be given up. -/
theorem Coherent.without_reservation (h : registry.Coherent) (hmodels : ¬ registry.Registered key)
    (hown : ∀ id', registry.loading id' = some key → id' = id)
    (hkey : registry.loading id = some key ∨ registry.loading id = none) :
    (registry.withoutReservation id key).Coherent := by
  obtain ⟨hdisjoint, hdistinct, hdistinct', hapart, hschedulers, hhealth⟩ := h
  constructor <;>
    simp only [Registry.withoutReservation, HealthState.removeModel, Registered, Reserved,
      Function.update_apply] at *
  all_goals grind

/-- A model can be published under a free id whose reservation, if any, has its key. -/
theorem Coherent.with_model (h : registry.Coherent) (hmodel : registry.models id = none)
    (hmodels : ¬ registry.Registered key)
    (hkey : registry.loading id = some key ∨ registry.loading id = none ∧ ¬ registry.Reserved key) :
    (registry.withModel id key).Coherent := by
  obtain ⟨hdisjoint, hdistinct, hdistinct', hapart, hschedulers, hhealth⟩ := h
  constructor <;>
    simp only [Registry.withModel, HealthState.setModel, Registered, Reserved,
      Function.update_apply] at *
  all_goals grind

/-- A registered model can be withdrawn. -/
theorem Coherent.without_model (h : registry.Coherent) (hmodel : registry.models id = some key) :
    (registry.withoutModel id key).Coherent := by
  obtain ⟨hdisjoint, hdistinct, hdistinct', hapart, hschedulers, hhealth⟩ := h
  constructor <;>
    simp only [Registry.withoutModel, HealthState.removeModel, Registered, Reserved,
      Function.update_apply] at *
  all_goals grind

/-- Removing the health entry of an unlisted key changes nothing. -/
theorem Coherent.remove_model_eq (h : registry.Coherent) (hmodels : ¬ registry.Registered key)
    (hloading : ¬ registry.Reserved key) :
    { registry with health := registry.health.removeModel key } = registry := by
  have hnone := (h.untraced hmodels hloading).health
  have hsame : Function.update registry.health.models key none = registry.health.models := by
    rw [← hnone, Function.update_eq_self]
  simp only [HealthState.removeModel, hsame]

end Registry

/-! ## Claims to keys -/

namespace Lifecycle

/-- A key that a load took and has not published; it may be reserved under the id of the load. -/
structure Claim where
  id : String
  key : ModelKey
  reserved : Bool

/-- The claim of a load at a program point. -/
def LoadPc.claim (id : String) : LoadPc → Option Claim
  | .allocated key => some ⟨id, key, false⟩
  | .reserved key | .submitted key | .loaded key | .starting key | .started key
  | .unwinding key _ => some ⟨id, key, true⟩
  | .releasing key ending | .released key ending | .finished (some key) ending =>
      if ending.isOk then none else some ⟨id, key, false⟩
  | _ => none

/-- The claim of a call. -/
def Call.claim : Call → Option Claim
  | .load _ id pc => pc.claim id
  | .holding next => next.claim
  | _ => none

/-- The key was taken from the counter, and nothing but the reservation of the load has it. -/
structure Claim.Valid (claim : Claim) (registry : Registry) (nextKey : Nat) : Prop where
  taken : claim.key < nextKey
  unregistered : ¬ registry.Registered claim.key
  unshared : ∀ id, registry.loading id = some claim.key → claim.reserved = true ∧ id = claim.id

/-- The claim says no more than another one to the same key. -/
structure Claim.Weaker (claim stronger : Claim) : Prop where
  id : claim.id = stronger.id
  key : claim.key = stronger.key
  reserved : stronger.reserved = true → claim.reserved = true

theorem Claim.Valid.weaken {claim stronger : Claim} {registry : Registry} {nextKey : Nat}
    (h : stronger.Valid registry nextKey) (hweaker : claim.Weaker stronger) :
    claim.Valid registry nextKey where
  taken := hweaker.key ▸ h.taken
  unregistered := hweaker.key ▸ h.unregistered
  unshared := by
    intro id hid
    rw [hweaker.key] at hid
    obtain ⟨hreserved, rfl⟩ := h.unshared id hid
    exact ⟨hweaker.reserved hreserved, hweaker.id.symm⟩

/-- A claim that is not reserved traces nothing. -/
theorem Claim.Valid.unreserved {claim : Claim} {registry : Registry} {nextKey : Nat}
    (h : claim.Valid registry nextKey) (hreserved : claim.reserved = false) :
    ¬ registry.Reserved claim.key := by
  rintro ⟨id, hid⟩
  have hclaim := (h.unshared id hid).1
  simp [hreserved] at hclaim

/-! ## The invariant -/

/-- What holds of the settled registries and the calls before the fence is set. -/
structure Sound (s : State) : Prop where
  coherent : s.settled.Coherent
  /-- Listed keys were taken from the counter. -/
  taken : ∀ key, s.settled.Registered key ∨ s.settled.Reserved key → key < s.inner.nextKey
  claims : ∀ task claim, (s.calls task).claim = some claim →
    claim.Valid s.settled s.inner.nextKey
  /-- No key is claimed twice. -/
  distinct : ∀ task task' claim claim', (s.calls task).claim = some claim →
    (s.calls task').claim = some claim' → claim.key = claim'.key → task = task'

/-- A step of one call keeps the invariant: it mentions no key but its own, which nobody else
claims, and its new claim is valid and to a key that nobody else claims. -/
theorem Sound.of_step {s s' : State} (hs : Sound s) (task : Nat) (own : Option ModelKey)
    (hothers : ∀ other, other ≠ task → s'.calls other = s.calls other)
    (hnext : s.inner.nextKey ≤ s'.inner.nextKey) (hcoherent : s'.settled.Coherent)
    (hframe : ∀ key, own ≠ some key → ∀ id,
      (s'.settled.models id = some key → s.settled.models id = some key) ∧
      (s'.settled.loading id = some key → s.settled.loading id = some key))
    (hown : ∀ key, own = some key → key < s'.inner.nextKey ∧
      ∀ other, other ≠ task → ∀ claim, (s.calls other).claim = some claim → claim.key ≠ key)
    (hclaim : ∀ claim, (s'.calls task).claim = some claim →
      claim.Valid s'.settled s'.inner.nextKey ∧
      ∀ other, other ≠ task → ∀ claim', (s.calls other).claim = some claim' →
        claim'.key ≠ claim.key) : Sound s' where
  coherent := hcoherent
  taken := by
    intro key hkey
    by_cases hmine : own = some key
    · exact (hown key hmine).1
    · have hframe := hframe key hmine
      refine lt_of_lt_of_le (hs.taken key ?_) hnext
      rcases hkey with ⟨id, hid⟩ | ⟨id, hid⟩
      · exact .inl ⟨id, (hframe id).1 hid⟩
      · exact .inr ⟨id, (hframe id).2 hid⟩
  claims := by
    intro other claim hother
    by_cases hsame : other = task
    · subst hsame
      exact (hclaim claim hother).1
    · rw [hothers other hsame] at hother
      have hvalid := hs.claims other claim hother
      -- The step is about its own key, which nobody else claims.
      have hnotOwn : own ≠ some claim.key := by
        intro hmine
        exact (hown _ hmine).2 other hsame claim hother rfl
      have hframe := hframe claim.key hnotOwn
      refine ⟨lt_of_lt_of_le hvalid.taken hnext, ?_, ?_⟩
      · rintro ⟨id, hid⟩
        exact hvalid.unregistered ⟨id, (hframe id).1 hid⟩
      · intro id hid
        exact hvalid.unshared id ((hframe id).2 hid)
  distinct := by
    intro first second claim claim' hfirst hsecond hkeys
    by_cases hone : first = task
    · by_cases htwo : second = task
      · rw [hone, htwo]
      · subst hone
        rw [hothers second htwo] at hsecond
        exact absurd hkeys.symm ((hclaim claim hfirst).2 second htwo claim' hsecond)
    · rw [hothers first hone] at hfirst
      by_cases htwo : second = task
      · subst htwo
        exact absurd hkeys ((hclaim claim' hsecond).2 first hone claim hfirst)
      · rw [hothers second htwo] at hsecond
        exact hs.distinct first second claim claim' hfirst hsecond hkeys

/-- Nobody else claims the key of a claim. -/
theorem Sound.unclaimed {s : State} (hs : Sound s) {task other : Nat} {claim claim' : Claim}
    (hclaim : (s.calls task).claim = some claim) (hother : other ≠ task)
    (hclaim' : (s.calls other).claim = some claim') : claim'.key ≠ claim.key :=
  fun hkeys => hother (hs.distinct other task claim' claim hclaim' hclaim hkeys)

/-- Nobody claims a key that is still to be taken. -/
theorem Sound.untaken {s : State} (hs : Sound s) {task : Nat} {claim : Claim}
    (hclaim : (s.calls task).claim = some claim) : claim.key ≠ s.inner.nextKey :=
  (hs.claims task claim hclaim).taken.ne

/-- The invariant is about the settled registries, the key counter and the claims. -/
theorem Sound.congr {s s' : State} (hs : Sound s) (hsettled : s'.settled = s.settled)
    (hnext : s'.inner.nextKey = s.inner.nextKey)
    (hclaims : ∀ task, (s'.calls task).claim = (s.calls task).claim) : Sound s' where
  coherent := hsettled ▸ hs.coherent
  taken := by
    rw [hsettled, hnext]
    exact hs.taken
  claims := by
    intro task claim hclaim
    rw [hclaims] at hclaim
    rw [hsettled, hnext]
    exact hs.claims task claim hclaim
  distinct := by
    intro task task' claim claim' hclaim hclaim'
    rw [hclaims] at hclaim hclaim'
    exact hs.distinct task task' claim claim' hclaim hclaim'

/-- A new program point with the same claim. -/
theorem State.with_call_claim {s : State} {task : Nat} {call : Call}
    (h : call.claim = (s.calls task).claim) (other : Nat) :
    ((s.withCall task call).calls other).claim = (s.calls other).claim := by
  by_cases hother : other = task
  · subst hother
    simpa [State.withCall] using h
  · simp [State.withCall, hother]

/-! ## Steps outside the sections -/

theorem Move.next_key_le {inner inner' : Inner} {call next : Call}
    (h : Move inner call inner' next) : inner.nextKey ≤ inner'.nextKey := by
  cases h with
  | allocate => exact Nat.le_succ _
  | _ => exact le_rfl

/-- A step outside the lock weakens the claim of the call, or takes a key. -/
theorem Move.claim {inner inner' : Inner} {call next : Call} (h : Move inner call inner' next)
    {claim : Claim} (hclaim : next.claim = some claim) :
    (∃ stronger, call.claim = some stronger ∧ claim.Weaker stronger) ∨
      (claim.key = inner.nextKey ∧ inner'.nextKey = inner.nextKey + 1) := by
  cases h with
  | allocate =>
      cases hclaim
      exact .inr ⟨rfl, rfl⟩
  | releaseCount =>
      exact .inl ⟨claim, hclaim, rfl, rfl, id⟩
  | @releasePermit origin id key ending =>
      refine .inl ⟨claim, ?_, rfl, rfl, fun h => h⟩
      by_cases hrecord : origin = .application ∧ ending.isOk
      · simp [hrecord, Call.claim, LoadPc.claim] at hclaim
      · simpa [hrecord, Call.claim, LoadPc.claim] using hclaim
  | loadRejected | registerRejected | deleteRejected | releaseWorkCount | releaseWorkPermit
  | directShutdown | completed | abandoned | droppedShutdown => cases hclaim
  | _ =>
      cases hclaim
      exact .inl ⟨_, rfl, rfl, rfl, fun h => h⟩

/-- A step outside the lock keeps the invariant. -/
theorem Sound.move {s : State} (hs : Sound s) {task : Nat} {inner : Inner} {next : Call}
    (h : Move s.inner (s.calls task) inner next) :
    Sound { s.withCall task next with inner := inner } := by
  have hsettled : State.settled { s.withCall task next with inner := inner } = s.settled := by
    show Monitor.settle Update.onRegistry s.outstanding inner.registry = s.settled
    rw [h.registry]
    rfl
  refine hs.of_step task none ?_ h.next_key_le (hsettled ▸ hs.coherent) ?_ ?_ ?_
  · intro other hother
    simp [State.withCall, hother]
  · intro key _ id
    rw [hsettled]
    exact ⟨fun h => h, fun h => h⟩
  · intro key hkey
    cases hkey
  · intro claim hclaim
    replace hclaim : next.claim = some claim := by simpa [State.withCall] using hclaim
    rw [hsettled]
    rcases h.claim hclaim with ⟨stronger, hstronger, hweaker⟩ | ⟨hkey, hnext⟩
    · have hvalid := (hs.claims task stronger hstronger).weaken hweaker
      refine ⟨⟨lt_of_lt_of_le hvalid.taken h.next_key_le, hvalid.2, hvalid.3⟩, ?_⟩
      intro other hother claim' hclaim'
      rw [hweaker.key]
      exact hs.unclaimed hstronger hother hclaim'
    · -- The key comes from the counter, so nothing is listed under it and nobody claims it.
      have hunlisted : ∀ key', s.settled.Registered key' ∨ s.settled.Reserved key' →
          key' ≠ claim.key := by
        intro key' hlisted
        rw [hkey]
        exact (hs.taken key' hlisted).ne
      refine ⟨⟨?_, ?_, ?_⟩, ?_⟩
      · show claim.key < inner.nextKey
        rw [hkey, hnext]
        exact Nat.lt_succ_self _
      · intro hregistered
        exact hunlisted _ (.inl hregistered) rfl
      · intro id hid
        exact absurd rfl (hunlisted claim.key (.inr ⟨id, hid⟩))
      · intro other hother claim' hclaim'
        rw [hkey]
        exact hs.untaken hclaim'

/-! ## Sections -/

section Enter

variable {s : State} {task taken : Nat} {updates : List Update} {next : Call}

/-- The state in which a call has entered its section. -/
def State.entered (s : State) (task taken : Nat) (updates : List Update) (next : Call) : State :=
  { s.withCall task (.holding next) with
    inner := { s.inner with nextKey := s.inner.nextKey + taken }
    admin := some (.call task, updates) }

@[simp]
theorem State.entered_settled :
    (s.entered task taken updates next).settled =
      Monitor.settle Update.onRegistry updates s.inner.registry :=
  rfl

@[simp]
theorem State.entered_next_key :
    (s.entered task taken updates next).inner.nextKey = s.inner.nextKey + taken :=
  rfl

theorem State.entered_others (other : Nat) (hother : other ≠ task) :
    (s.entered task taken updates next).calls other = s.calls other := by
  simp [State.entered, State.withCall, hother]

theorem State.entered_claim :
    ((s.entered task taken updates next).calls task).claim = next.claim := by
  simp [State.entered, State.withCall, Call.claim]

/-- A section that writes nothing and weakens the claim of its call. -/
theorem Sound.enter_nothing (hs : Sound s) (hfree : s.admin = none)
    (hupdates : Monitor.settle Update.onRegistry updates s.inner.registry = s.inner.registry)
    (hclaim : ∀ claim, next.claim = some claim →
      ∃ stronger, (s.calls task).claim = some stronger ∧ claim.Weaker stronger) :
    Sound (s.entered task taken updates next) := by
  have hsettled : (s.entered task taken updates next).settled = s.settled := by
    rw [State.entered_settled, hupdates, State.settled_of_free hfree]
  refine hs.of_step task none State.entered_others (Nat.le_add_right _ _) (hsettled ▸ hs.coherent)
    ?_ ?_ ?_
  · intro key _ id
    rw [hsettled]
    exact ⟨fun h => h, fun h => h⟩
  · intro key hkey
    cases hkey
  · intro claim hnew
    rw [State.entered_claim] at hnew
    obtain ⟨stronger, hstronger, hweaker⟩ := hclaim claim hnew
    have hvalid := (hs.claims task stronger hstronger).weaken hweaker
    rw [hsettled, hweaker.key]
    refine ⟨⟨Nat.lt_add_right _ hvalid.taken, hvalid.2, hvalid.3⟩, ?_⟩
    intro other hother claim' hclaim'
    exact hs.unclaimed hstronger hother hclaim'

/-- The section of a reservation. -/
theorem Sound.enter_reserve (hs : Sound s) (hfree : s.admin = none) {origin : Origin} {id : String}
    {key : ModelKey} (hcall : s.calls task = .load origin id (.allocated key))
    (h : s.inner.reserve id key = .ok updates) :
    Sound (s.entered task 0 updates (.load origin id (.reserved key))) := by
  obtain ⟨_, hmodel, hloading, hupdates⟩ := Inner.reserve_ok h
  have hregistry := State.settled_of_free hfree
  have hold : (s.calls task).claim = some ⟨id, key, false⟩ := by rw [hcall]; rfl
  have hvalid := hs.claims task _ hold
  have hsettled : (s.entered task 0 updates (.load origin id (.reserved key))).settled =
      s.inner.registry.withReservation id key := by
    rw [State.entered_settled, hupdates]
    rfl
  rw [hregistry] at hvalid
  have hunclaimed : ∀ other, other ≠ task → ∀ claim, (s.calls other).claim = some claim →
      claim.key ≠ key := fun other hother claim hclaim => hs.unclaimed hold hother hclaim
  refine hs.of_step task (some key) State.entered_others le_rfl ?_ ?_ ?_ ?_
  · rw [hsettled]
    exact (hregistry ▸ hs.coherent).with_reservation hmodel hloading hvalid.unregistered
      (hvalid.unreserved rfl)
  · intro other hother id'
    rw [hsettled, hregistry]
    refine ⟨fun hid => hid, ?_⟩
    intro hid
    simp only [Registry.withReservation, Function.update_apply] at hid
    split at hid
    · exact absurd hid hother
    · exact hid
  · rintro other ⟨rfl⟩
    exact ⟨hvalid.taken, hunclaimed⟩
  · intro claim hnew
    rw [State.entered_claim] at hnew
    cases hnew
    refine ⟨⟨hvalid.taken, ?_, ?_⟩, hunclaimed⟩
    · rw [hsettled]
      exact hvalid.unregistered
    intro id' hid
    refine ⟨rfl, ?_⟩
    rw [hsettled] at hid
    simp only [Registry.withReservation, Function.update_apply] at hid
    split at hid
    case isTrue hsame => exact hsame
    case isFalse => exact absurd ⟨id', hid⟩ (hvalid.unreserved rfl)

/-- A section that publishes a model under a key that nobody else claims. -/
theorem Sound.enter_publish (hs : Sound s) (hfree : s.admin = none) {id : String} {key : ModelKey}
    (hmodel : s.inner.registry.models id = none)
    (hunregistered : ¬ s.inner.registry.Registered key)
    (hloading : s.inner.registry.loading id = some key ∨
      s.inner.registry.loading id = none ∧ ¬ s.inner.registry.Reserved key)
    (htaken : key < s.inner.nextKey + taken)
    (hunclaimed : ∀ other, other ≠ task → ∀ claim, (s.calls other).claim = some claim →
      claim.key ≠ key)
    (hupdates : Monitor.settle Update.onRegistry updates s.inner.registry =
      s.inner.registry.withModel id key)
    (hnext : next.claim = none) : Sound (s.entered task taken updates next) := by
  have hregistry := State.settled_of_free hfree
  have hsettled : (s.entered task taken updates next).settled =
      s.inner.registry.withModel id key := hupdates
  refine hs.of_step task (some key) State.entered_others (Nat.le_add_right _ _) ?_ ?_ ?_ ?_
  · rw [hsettled]
    exact (hregistry ▸ hs.coherent).with_model hmodel hunregistered hloading
  · intro other hother id'
    rw [hsettled, hregistry]
    simp only [Registry.withModel, Function.update_apply]
    constructor
    · intro hid
      split at hid
      · exact absurd hid hother
      · exact hid
    · intro hid
      split at hid
      · cases hid
      · exact hid
  · rintro other ⟨rfl⟩
    exact ⟨htaken, hunclaimed⟩
  · intro claim hnew
    rw [State.entered_claim, hnext] at hnew
    cases hnew

/-- A section that withdraws a registered model. -/
theorem Sound.enter_unload (hs : Sound s) (hfree : s.admin = none) {id : String}
    (h : s.inner.unload id = .ok updates) (hnext : next.claim = none) :
    Sound (s.entered task 0 updates next) := by
  obtain ⟨_, key, hmodel, _, hupdates⟩ := Inner.unload_ok h
  have hregistry := State.settled_of_free hfree
  have hsettled : (s.entered task 0 updates next).settled =
      s.inner.registry.withoutModel id key := by
    rw [State.entered_settled, hupdates]
    rfl
  refine hs.of_step task none State.entered_others le_rfl ?_ ?_ ?_ ?_
  · rw [hsettled]
    exact (hregistry ▸ hs.coherent).without_model hmodel
  · intro other _ id'
    rw [hsettled, hregistry]
    refine ⟨?_, fun hid => hid⟩
    intro hid
    simp only [Registry.withoutModel, Function.update_apply] at hid
    split at hid
    · cases hid
    · exact hid
  · intro other hother
    cases hother
  · intro claim hnew
    rw [State.entered_claim, hnext] at hnew
    cases hnew

/-- The section of a reservation that is dropped. -/
theorem Sound.enter_drop (hs : Sound s) (hfree : s.admin = none) {origin : Origin} {id : String}
    {key : ModelKey} {ending : Ending}
    (hcall : s.calls task = .load origin id (.unwinding key ending)) :
    Sound (s.entered task 0 (s.inner.dropReservation id key)
      (.load origin id (.releasing key ending))) := by
  have hregistry := State.settled_of_free hfree
  have hcoherent : s.inner.registry.Coherent := hregistry ▸ hs.coherent
  have hold : (s.calls task).claim = some ⟨id, key, true⟩ := by rw [hcall]; rfl
  have hvalid := hs.claims task _ hold
  rw [hregistry] at hvalid
  have hown : ∀ id', s.inner.registry.loading id' = some key → id' = id :=
    fun id' hid => (hvalid.unshared id' hid).2
  have hunclaimed : ∀ other, other ≠ task → ∀ claim, (s.calls other).claim = some claim →
      claim.key ≠ key := fun other hother claim hclaim => hs.unclaimed hold hother hclaim
  -- Afterwards nothing has the key, whether the reservation was made or not.
  obtain ⟨hafter, hframe, hgone⟩ :
      (s.entered task 0 (s.inner.dropReservation id key)
        (.load origin id (.releasing key ending))).settled.Coherent ∧
      (∀ key' id', (Monitor.settle Update.onRegistry (s.inner.dropReservation id key)
          s.inner.registry).loading id' = some key' →
        s.inner.registry.loading id' = some key') ∧
      ∀ id', (Monitor.settle Update.onRegistry (s.inner.dropReservation id key)
        s.inner.registry).loading id' ≠ some key := by
    rw [State.entered_settled]
    by_cases hreserved : s.inner.registry.loading id = some key
    · have hsettled : Monitor.settle Update.onRegistry (s.inner.dropReservation id key)
          s.inner.registry = s.inner.registry.withoutReservation id key := by
        simp [Inner.dropReservation, hreserved, Update.onRegistry, RegistryUpdate.apply,
          Registry.withoutReservation]
      rw [hsettled]
      refine ⟨hcoherent.without_reservation hvalid.unregistered hown (.inl hreserved), ?_, ?_⟩
      · intro key' id' hid
        simp only [Registry.withoutReservation, Function.update_apply] at hid
        split at hid
        · cases hid
        · exact hid
      · intro id' hid
        simp only [Registry.withoutReservation, Function.update_apply] at hid
        split at hid
        · cases hid
        case isFalse hne => exact hne (hown id' hid)
    · have hnever : ∀ id', s.inner.registry.loading id' ≠ some key := by
        intro id' hid
        exact hreserved (hown id' hid ▸ hid)
      have hsettled : Monitor.settle Update.onRegistry (s.inner.dropReservation id key)
          s.inner.registry = s.inner.registry := by
        simp only [Inner.dropReservation, hreserved, if_false, Monitor.settle_cons,
          Monitor.settle_nil, Update.onRegistry, RegistryUpdate.apply]
        exact hcoherent.remove_model_eq hvalid.unregistered fun ⟨id', hid⟩ => hnever id' hid
      rw [hsettled]
      exact ⟨hcoherent, fun _ _ hid => hid, hnever⟩
  have hmodels : (Monitor.settle Update.onRegistry (s.inner.dropReservation id key)
      s.inner.registry).models = s.inner.registry.models := by
    unfold Inner.dropReservation
    split <;> rfl
  refine hs.of_step task none State.entered_others le_rfl hafter ?_ ?_ ?_
  · intro key' _ id'
    rw [State.entered_settled, hregistry, hmodels]
    exact ⟨fun hid => hid, hframe key' id'⟩
  · intro other hother
    cases hother
  · intro claim hnew
    rw [State.entered_claim] at hnew
    simp only [Call.claim, LoadPc.claim] at hnew
    split at hnew
    · cases hnew
    · cases hnew
      refine ⟨⟨hvalid.taken, ?_, ?_⟩, hunclaimed⟩
      · rintro ⟨id', hid⟩
        rw [State.entered_settled, hmodels] at hid
        exact hvalid.unregistered ⟨id', hid⟩
      · intro id' hid
        exact absurd hid (hgone id')

/-- Entering a section keeps the invariant. -/
theorem Sound.enter (hs : Sound s) (hfree : s.admin = none)
    (h : Section s.inner (s.calls task) taken updates next)
    (hopen : (s.entered task taken updates next).settled.draining = false) :
    Sound (s.entered task taken updates next) := by
  have hregistry := State.settled_of_free hfree
  generalize hcall : s.calls task = call at h
  -- A refused call gives up nothing but what it had not claimed.
  have hunclaimed : ∀ {claims : Option Claim}, claims = none → ∀ claim, claims = some claim →
      ∃ stronger, (s.calls task).claim = some stronger ∧ claim.Weaker stronger := by
    rintro _ rfl claim ⟨⟩
  cases h with
  | loadRefused | notRetracted | notRegistered | notUnloaded | deleted | workRefused =>
      exact hs.enter_nothing hfree rfl (hunclaimed rfl)
  | loadAdmitted h =>
      obtain ⟨_, _, rfl⟩ := Inner.admit_work_some h
      exact hs.enter_nothing hfree rfl (hunclaimed rfl)
  | workAdmitted h =>
      obtain ⟨_, _, rfl⟩ := Inner.admit_work_some h
      exact hs.enter_nothing hfree rfl (hunclaimed rfl)
  | notReserved | notPublished =>
      refine hs.enter_nothing hfree rfl ?_
      rintro claim ⟨rfl⟩
      rw [hcall]
      exact ⟨_, rfl, rfl, rfl, fun _ => rfl⟩
  | reserved h => exact hs.enter_reserve hfree hcall h
  | @published origin id key _ _ h =>
      obtain ⟨_, hmodel, hloading, hupdates⟩ := Inner.register_reserved_engine_ok h
      have hold : (s.calls task).claim = some ⟨id, key, true⟩ := by rw [hcall]; rfl
      have hvalid := hs.claims task _ hold
      rw [hregistry] at hvalid
      refine hs.enter_publish hfree hmodel hvalid.unregistered (.inl hloading) hvalid.taken
        (fun other hother claim hclaim => hs.unclaimed hold hother hclaim) ?_ rfl
      rw [hupdates]
      rfl
  | unwound => exact hs.enter_drop hfree hcall
  | retracted h => exact hs.enter_unload hfree h rfl
  | unloaded h => exact hs.enter_unload hfree h rfl
  | @registered id _ _ _ h =>
      obtain ⟨_, hmodel, hloading, hupdates⟩ := Inner.register_engine_ok h
      have hunlisted : ¬ (s.settled.Registered s.inner.nextKey ∨
          s.settled.Reserved s.inner.nextKey) :=
        fun hlisted => lt_irrefl _ (hs.taken _ hlisted)
      rw [hregistry, not_or] at hunlisted
      refine hs.enter_publish hfree hmodel hunlisted.1 (.inr ⟨hloading, hunlisted.2⟩)
        (Nat.lt_succ_self _) (fun other _ claim hclaim => hs.untaken hclaim) ?_ rfl
      rw [hupdates]
      have hsame : Function.update s.inner.registry.loading id none = s.inner.registry.loading := by
        rw [← hloading, Function.update_eq_self]
      simp [Update.onRegistry, RegistryUpdate.apply, Registry.withModel, hsame]
  | shutdown =>
      -- The first shutdown sets the fence; a later one writes the deadline only.
      cases hflight : s.inner.flight with
      | none =>
          simp [Inner.beginShutdown, hflight, Update.onRegistry, RegistryUpdate.apply] at hopen
      | some flight =>
          refine hs.enter_nothing hfree ?_ (hunclaimed rfl)
          simp [Inner.beginShutdown, hflight, Update.onRegistry]

end Enter

/-! ## Whole runs -/

/-- Every step keeps the invariant as long as the fence is not set. -/
theorem Sound.step {s s' : State} {actor : Actor} (hfenced : Fenced s)
    (hs : s.settled.draining = false → Sound s) (hstep : Step actor s s')
    (hopen : s'.settled.draining = false) : Sound s' := by
  have hbefore : s.inner.registry.draining = true → s.settled.draining = true :=
    fun h => settle_draining h _
  -- A step of the flight's task is behind the fence.
  have hno : ∀ {flight}, s.inner.flight = some flight →
      ∀ {registry : Registry} {updates : List Update},
        registry.draining = s.inner.registry.draining →
        (Monitor.settle Update.onRegistry updates registry).draining ≠ false := by
    intro flight hflight registry updates hregistry hfalse
    have hdraining := hregistry.trans (hfenced.draining hflight)
    simp [settle_draining hdraining updates] at hfalse
  cases hstep with
  | enter hfree h =>
      refine (hs ?_).enter hfree h hopen
      rw [State.settled_of_free hfree]
      cases hdraining : s.inner.registry.draining with
      | false => rfl
      | true =>
          have hafter := settle_draining hdraining ‹List Update›
          exact absurd (hafter.symm.trans hopen) (by simp)
  | @write _ _ update updates h =>
      have hsettled : State.settled { s with
          inner := update.apply s.inner, admin := some (actor, updates) } = s.settled := by
        simp [State.settled, State.outstanding, h]
      rw [hsettled] at hopen
      exact (hs hopen).congr hsettled (by simp) fun _ => rfl
  | @leave _ task next h hcall =>
      have hsettled : State.settled { s.withCall task next with admin := none } = s.settled := by
        simp [State.settled, State.outstanding, h, State.withCall]
      rw [hsettled] at hopen
      refine (hs hopen).congr hsettled rfl ?_
      exact State.with_call_claim (by rw [hcall]; rfl)
  | @move _ task inner next h =>
      refine (hs ?_).move h
      simpa [State.settled, State.outstanding, State.withCall, h.registry] using hopen
  | finish h hstep => exact absurd hopen (hno h hstep.draining)
  | finishEnter hfree h htask => exact absurd hopen (hno h rfl)
  | finishLeave h hflight htask => exact absurd hopen (hno hflight rfl)
  | @begin _ task call h hcall =>
      refine (hs hopen).congr rfl rfl (State.with_call_claim ?_)
      rw [h]
      cases hcall <;> rfl
  | lockLoaded h _ | recordFenced h _ | recordOpen h _ | record h | fenceApplication h
  | clearLoaded h _ => exact (hs hopen).congr rfl rfl (State.with_call_claim (by rw [h]; rfl))
  | unloadRecord | tick | lease => exact (hs hopen).congr rfl rfl fun _ => rfl

/-! ## What a load may touch -/

/-- The key of a load inside `load_with`, once it has one. -/
def LoadPc.ownKey : LoadPc → Option (Option ModelKey)
  | .called | .permitted => some none
  | .allocated key | .reserved key | .submitted key | .loaded key | .starting key | .started key
  | .unwinding key _ | .releasing key _ | .released key _ => some (some key)
  | .finished key _ => some key
  | _ => none

/-- The key of a call inside `load_with`, once it has one. -/
def Call.ownKey : Call → Option (Option ModelKey)
  | .load _ _ pc => pc.ownKey
  | .holding next => next.ownKey
  | _ => none

/-- The write spares the entries of other keys. -/
def Update.Sparing (own : Option ModelKey) (registry : Registry) (update : Update) : Prop :=
  registry.Spares own (update.onRegistry registry)

theorem Registry.Spares.refl (own : Option ModelKey) (registry : Registry) :
    registry.Spares own registry :=
  ⟨fun _ _ _ h => h, fun _ _ _ h => h, fun _ _ => rfl, fun _ _ => rfl⟩

section Sparing

variable {registry : Registry} {id : String} {key : ModelKey}

/-- A write to the health entry of the key. -/
theorem sparing_set_health (state : ModelState) :
    Update.Sparing (some key) registry (.registry (.setHealth key state)) where
  models := fun _ _ _ h => h
  loading := fun _ _ _ h => h
  schedulers := fun _ _ => rfl
  health := by
    intro other hother
    have hne : other ≠ key := fun h => hother (h ▸ rfl)
    simp [Update.onRegistry, RegistryUpdate.apply, HealthState.setModel, hne]

theorem sparing_remove_health :
    Update.Sparing (some key) registry (.registry (.removeHealth key)) where
  models := fun _ _ _ h => h
  loading := fun _ _ _ h => h
  schedulers := fun _ _ => rfl
  health := by
    intro other hother
    have hne : other ≠ key := fun h => hother (h ▸ rfl)
    simp [Update.onRegistry, RegistryUpdate.apply, HealthState.removeModel, hne]

/-- A reservation of a free id. -/
theorem sparing_insert_loading (hfree : registry.loading id = none) :
    Update.Sparing (some key) registry (.registry (.insertLoading id key)) where
  models := fun _ _ _ h => h
  loading := by
    intro id' other _ hid
    have hne : id' ≠ id := by
      rintro rfl
      simp [hfree] at hid
    simpa [Update.onRegistry, RegistryUpdate.apply, hne] using hid
  schedulers := fun _ _ => rfl
  health := fun _ _ => rfl

/-- The removal of the key's own reservation. -/
theorem sparing_remove_loading (hown : registry.loading id = some key) :
    Update.Sparing (some key) registry (.registry (.removeLoading id)) where
  models := fun _ _ _ h => h
  loading := by
    intro id' other hother hid
    have hne : id' ≠ id := by
      rintro rfl
      exact hother (hown.symm.trans hid)
    simpa [Update.onRegistry, RegistryUpdate.apply, hne] using hid
  schedulers := fun _ _ => rfl
  health := fun _ _ => rfl

/-- A model under a free id. -/
theorem sparing_insert_model (hfree : registry.models id = none) :
    Update.Sparing (some key) registry (.registry (.insertModel id key)) where
  models := by
    intro id' other _ hid
    have hne : id' ≠ id := by
      rintro rfl
      simp [hfree] at hid
    simpa [Update.onRegistry, RegistryUpdate.apply, hne] using hid
  loading := fun _ _ _ h => h
  schedulers := fun _ _ => rfl
  health := fun _ _ => rfl

theorem sparing_insert_scheduler :
    Update.Sparing (some key) registry (.registry (.insertScheduler key)) where
  models := fun _ _ _ h => h
  loading := fun _ _ _ h => h
  schedulers := by
    intro other hother
    have hne : other ≠ key := fun h => hother (h ▸ rfl)
    simp [Update.onRegistry, RegistryUpdate.apply, hne]
  health := fun _ _ => rfl

end Sparing

/-- What a load decides to write spares the entries of others. -/
theorem Section.sparing {inner : Inner} {call next : Call} {taken : Nat} {updates : List Update}
    (h : Section inner call taken updates next) {own : Option ModelKey}
    (hown : next.ownKey = some own) :
    Monitor.Confined Update.onRegistry (Update.Sparing own) updates inner.registry := by
  cases h with
  | loadRefused | notReserved | notPublished | notRetracted | notRegistered | notUnloaded
  | deleted | workRefused => trivial
  | loadAdmitted h =>
      obtain ⟨_, _, rfl⟩ := Inner.admit_work_some h
      exact ⟨Registry.Spares.refl _ _, Registry.Spares.refl _ _, trivial⟩
  | reserved h =>
      obtain ⟨_, _, hfree, rfl⟩ := Inner.reserve_ok h
      cases hown
      exact ⟨sparing_insert_loading hfree, sparing_set_health _, trivial⟩
  | published _ h =>
      obtain ⟨_, hfree, hreserved, rfl⟩ := Inner.register_reserved_engine_ok h
      cases hown
      exact ⟨Registry.Spares.refl _ _, sparing_insert_scheduler, sparing_insert_model hfree,
        sparing_remove_loading hreserved, sparing_set_health _, trivial⟩
  | unwound =>
      cases hown
      unfold Inner.dropReservation
      split
      case isTrue hreserved =>
        exact ⟨sparing_remove_loading hreserved, sparing_remove_health, trivial⟩
      case isFalse => exact ⟨sparing_remove_health, trivial⟩
  | retracted | registered | unloaded | workAdmitted | shutdown => cases hown

/-- The holder of the lock is inside its section, and a load spares the entries of others. -/
structure Spared (s : State) : Prop where
  holder : ∀ task updates, s.admin = some (.call task, updates) →
    ∃ next, s.calls task = .holding next
  writes : s.inner.registry.draining = false → ∀ task updates own,
    s.admin = some (.call task, updates) → (s.calls task).ownKey = some own →
    Monitor.Confined Update.onRegistry (Update.Sparing own) updates s.inner.registry

/-- A step of a call that is not inside a section keeps what is known of the holder. -/
theorem Spared.other {s s' : State} (hs : Spared s) {task : Nat} {call : Call}
    (hcall : s.calls task = call) (hout : ∀ next, call ≠ .holding next)
    (hadmin : s'.admin = s.admin)
    (hregistry : s'.inner.registry = s.inner.registry)
    (hothers : ∀ other, other ≠ task → s'.calls other = s.calls other) : Spared s' := by
  have hsame : ∀ other updates, s'.admin = some (.call other, updates) →
      s'.calls other = s.calls other := by
    intro other updates hholder
    refine hothers other ?_
    rintro rfl
    obtain ⟨next, hnext⟩ := hs.holder other updates (hadmin ▸ hholder)
    exact hout next (hcall.symm.trans hnext)
  constructor
  · intro other updates hholder
    rw [hsame other updates hholder]
    exact hs.holder other updates (hadmin ▸ hholder)
  · intro hopen other updates own hholder hown
    rw [hsame other updates hholder] at hown
    rw [hregistry] at hopen ⊢
    exact hs.writes hopen other updates own (hadmin ▸ hholder) hown

theorem Spared.step {s s' : State} {actor : Actor} (hfenced : Fenced s) (hs : Spared s)
    (hstep : Step actor s s') : Spared s' := by
  cases hstep with
  | @enter _ task taken updates next hfree h =>
      constructor
      · rintro other _ ⟨⟩
        exact ⟨next, by simp [State.withCall]⟩
      · rintro _ other _ own ⟨⟩ hown
        exact h.sparing (by simpa [State.withCall, Call.ownKey] using hown)
  | @write _ actor update updates h =>
      constructor
      · rintro task _ ⟨⟩
        exact hs.holder task _ h
      · rintro hopen task _ own ⟨⟩ hown
        -- A registry that is still open was open before the write.
        have hbefore : s.inner.registry.draining = false := by
          cases hdraining : s.inner.registry.draining with
          | false => rfl
          | true =>
              have hafter := on_registry_draining hdraining update
              rw [Update.apply_registry] at hopen
              exact absurd (hafter.symm.trans hopen) (by simp)
        have hconfined := hs.writes hbefore task _ own h hown
        rw [Update.apply_registry]
        exact hconfined.2
  | leave h hcall =>
      constructor
      · rintro task updates ⟨⟩
      · rintro _ task updates own ⟨⟩
  | @move _ task inner next h =>
      refine hs.other (Eq.refl (s.calls task)) ?_ rfl h.registry ?_
      · intro next' hnext
        rw [hnext] at h
        cases h
      · intro other hother
        simp [State.withCall, hother]
  | finish h hstep =>
      constructor
      · exact hs.holder
      · intro hopen
        -- The task of the shutdown works behind the fence only.
        have hdraining := hstep.draining.trans (hfenced.draining h)
        exact absurd (hdraining.symm.trans hopen) (by simp)
  | finishEnter hfree h htask =>
      constructor
      · rintro task updates ⟨⟩
      · rintro _ task updates own ⟨⟩
  | finishLeave h hflight htask =>
      constructor
      · rintro task updates ⟨⟩
      · rintro _ task updates own ⟨⟩
  | begin h _ | lockLoaded h _ | recordFenced h _ | recordOpen h _ | record h | fenceApplication h
  | clearLoaded h _ =>
      refine hs.other h ?_ rfl rfl ?_
      · intro next hnext
        cases hnext
      · intro other hother
        simp [State.withCall, hother]
  | unloadRecord | tick | lease => exact ⟨hs.holder, hs.writes⟩

/-- A load's own step spares the entries of others. -/
theorem Spared.spares {s s' : State} (hs : Spared s) (hopen : s.inner.registry.draining = false)
    {task : Nat} {own : Option ModelKey} (hown : (s.calls task).ownKey = some own)
    (hstep : Step (.call task) s s') : s.inner.registry.Spares own s'.inner.registry := by
  cases hstep with
  | @write _ _ update updates h =>
      have hconfined := hs.writes hopen task _ own h hown
      rw [Update.apply_registry]
      exact hconfined.1
  | move h =>
      rw [h.registry]
      exact Registry.Spares.refl _ _
  | begin | enter | leave | lockLoaded | recordFenced | recordOpen | record | fenceApplication
  | clearLoaded => exact Registry.Spares.refl _ _

/-- What holds in every state of a run. -/
structure Orderly (s : State) : Prop where
  fenced : Fenced s
  sound : s.settled.draining = false → Sound s
  spared : Spared s

theorem orderly_initial : Orderly initial where
  fenced := fenced_initial
  sound := by
    intro _
    constructor
    · constructor <;>
        simp [initial, Inner.new, State.settled, State.outstanding, Registry.Registered,
          Registry.Reserved, HealthState.default]
    · rintro key (⟨id, hid⟩ | ⟨id, hid⟩) <;> cases hid
    · intro task claim hclaim
      cases hclaim
    · intro task task' claim claim' hclaim
      cases hclaim
  spared := by
    constructor
    · rintro task updates ⟨⟩
    · rintro _ task updates own ⟨⟩

theorem orderly_preserved : Transition.Preserves Next Orderly := by
  intro s s' hs hnext
  obtain ⟨actor, hstep⟩ := hnext
  exact ⟨fenced_preserved hs.fenced ⟨actor, hstep⟩, Sound.step hs.fenced hs.sound hstep,
    hs.spared.step hs.fenced hstep⟩

/-- Before the shutdown fence is set, in every state of every run: if the admin lock is free
the four registries are coherent, and a load that returned an error or was dropped is not
traced by any of them; and no step of a load touches an entry of another load or model. -/
theorem registry_coherence {s : State} (hrun : Transition.Run Next initial s)
    (hbefore : s.inner.registry.draining = false) :
    (s.admin = none → s.inner.registry.Coherent ∧
      ∀ task origin id key ending, s.calls task = .load origin id (.finished (some key) ending) →
        ending.isOk = false → s.inner.registry.Untraced key) ∧
    ∀ task own s', (s.calls task).ownKey = some own → Step (.call task) s s' →
      s.inner.registry.Spares own s'.inner.registry := by
  have hs := orderly_preserved.run hrun orderly_initial
  refine ⟨?_, fun task own s' hown hstep => hs.spared.spares hbefore hown hstep⟩
  intro hfree
  have hregistry := State.settled_of_free hfree
  have hsound := hs.sound (by rw [hregistry]; exact hbefore)
  have hcoherent : s.inner.registry.Coherent := hregistry ▸ hsound.coherent
  refine ⟨hcoherent, ?_⟩
  intro task origin id key ending hcall hending
  have hvalid := hsound.claims task ⟨id, key, false⟩
    (by rw [hcall]; simp [Call.claim, LoadPc.claim, hending])
  rw [hregistry] at hvalid
  exact hcoherent.untraced hvalid.unregistered (hvalid.unreserved rfl)

/-- A load that the full pool refuses. -/
theorem registry_coherence_refused :
    ∃ s, Transition.Run Next initial s ∧ s.inner.registry.draining = false ∧
      s.calls 0 = .load .direct "m" (.finished (some 1) (.returned (.error .inUse))) ∧
      s.inner.registry.Untraced 1 := by
  have h : Transition.Run Next initial _ := .single ⟨.call 0, .begin rfl (.load .direct "m")⟩
  replace h := h.tail ⟨.call 0, .enter rfl (.loadAdmitted rfl)⟩
  replace h := h.tail ⟨.call 0, .write rfl⟩
  replace h := h.tail ⟨.call 0, .write rfl⟩
  replace h := h.tail ⟨.call 0, .leave rfl rfl⟩
  replace h := h.tail ⟨.call 0, .move .allocate⟩
  replace h := h.tail ⟨.call 0, .enter rfl (.reserved rfl)⟩
  replace h := h.tail ⟨.call 0, .write rfl⟩
  replace h := h.tail ⟨.call 0, .write rfl⟩
  replace h := h.tail ⟨.call 0, .leave rfl rfl⟩
  replace h := h.tail ⟨.call 0, .move .poolFull⟩
  replace h := h.tail ⟨.call 0, .enter rfl .unwound⟩
  replace h := h.tail ⟨.call 0, .write rfl⟩
  replace h := h.tail ⟨.call 0, .write rfl⟩
  replace h := h.tail ⟨.call 0, .leave rfl rfl⟩
  replace h := h.tail ⟨.call 0, .move .releaseCount⟩
  replace h := h.tail ⟨.call 0, .move .releasePermit⟩
  exact ⟨_, h, rfl, rfl, ((registry_coherence h rfl).1 rfl).2 0 _ _ _ _ rfl rfl⟩

end Lifecycle

end EmbeddingServer
