import EmbeddingServer.Runtime.Lifecycle

/-!
# The admin lock and the shutdown fence

The registries are settled when the outstanding writes of the lock holder are made. A
shutdown sets the fence under the lock and opens its flight after it, so a flight means a
fence, and whoever holds the lock while the fence is set has nothing to insert: its writes
are quiet.
-/

namespace EmbeddingServer.Lifecycle

/-- The writes that the holder of the admin lock has still to make. -/
def State.outstanding (s : State) : List Update :=
  match s.admin with
  | none => []
  | some (_, updates) => updates

/-- The registries with the outstanding writes made. -/
def State.settled (s : State) : Registry :=
  Monitor.settle Update.onRegistry s.outstanding s.inner.registry

/-- While the admin lock is free, the registries are settled. -/
theorem State.settled_of_free {s : State} (h : s.admin = none) : s.settled = s.inner.registry := by
  simp [State.settled, State.outstanding, h]

/-- The fence is never lifted. -/
theorem on_registry_draining {registry : Registry} (h : registry.draining = true)
    (update : Update) :
    (update.onRegistry registry).draining = true := by
  cases update with
  | registry update => cases update <;> first | exact h | rfl
  | _ => exact h

theorem settle_draining {registry : Registry} (h : registry.draining = true)
    (updates : List Update) :
    (Monitor.settle Update.onRegistry updates registry).draining = true := by
  induction updates generalizing registry with
  | nil => exact h
  | cons update updates ih => exact ih (on_registry_draining h update)

/-! ## Steps outside the lock -/

section Moves

variable {inner inner' : Inner} {call next : Call}

/-- A step outside the lock leaves the registries alone. -/
theorem Move.registry (h : Move inner call inner' next) : inner'.registry = inner.registry := by
  cases h <;> rfl

/-- A step outside the lock leaves the flight alone. -/
theorem Move.flight (h : Move inner call inner' next) : inner'.flight = inner.flight := by
  cases h <;> rfl

variable {clock : Nat} {flight flight' : ShutdownFlight}

/-- The task of the flight does not touch the fence. -/
theorem Finish.draining (h : Finish clock inner flight inner' flight') :
    inner'.registry.draining = inner.registry.draining := by
  cases h <;> rfl

end Moves

/-! ## Quiet writes -/

/-- Whether a flight is open, and whether the fence is set. -/
structure Fence where
  opened : Bool
  draining : Bool

/-- The fence of a runtime. -/
def fenceOf (inner : Inner) : Fence :=
  ⟨inner.flight.isSome, inner.registry.draining⟩

/-- What a write does to the fence. -/
def Update.onFence (fence : Fence) : Update → Fence
  | .registry .drain => { fence with draining := true }
  | .openFlight _ => { fence with opened := true }
  | _ => fence

theorem fence_of_apply (inner : Inner) (update : Update) :
    fenceOf (update.apply inner) = Update.onFence (fenceOf inner) update := by
  cases update with
  | registry update => cases update <;> rfl
  | tighten deadline => simp [fenceOf, Update.apply, Update.onFence]
  | _ => rfl

/-- The write admits nothing and lists nothing. -/
def Update.quiet : Update → Bool
  | .registry (.insertModel _ _) | .registry (.insertLoading _ _) | .registry (.insertScheduler _)
  | .registry (.setHealth _ _) | .admitWork | .count | .accepting _ true => false
  | _ => true

/-- Behind the fence writes are quiet, and one flight is opened behind it. -/
structure Update.Behind (fence : Fence) (update : Update) : Prop where
  quiet : fence.draining = true → Update.quiet update = true
  opens : ∀ deadline, update = .openFlight deadline →
    fence.draining = true ∧ fence.opened = false

/-- A write that respects the fence leaves a flight behind it. -/
theorem Update.Behind.keeps {fence : Fence} {update : Update} (h : Update.Behind fence update)
    (hbehind : fence.opened = true → fence.draining = true) :
    (Update.onFence fence update).opened = true →
      (Update.onFence fence update).draining = true := by
  cases update with
  | registry update =>
      cases update with
      | drain => exact fun _ => rfl
      | _ => exact hbehind
  | openFlight deadline => exact fun _ => (h.opens deadline rfl).1
  | _ => exact hbehind

/-- The write neither sets the fence nor opens the flight. -/
def Update.plain : Update → Bool
  | .registry .drain | .openFlight _ => false
  | _ => true

theorem Update.on_fence_plain {update : Update} (h : Update.plain update = true) (fence : Fence) :
    Update.onFence fence update = fence := by
  cases update with
  | registry update =>
      cases update <;> first | rfl | cases h
  | openFlight => cases h
  | _ => rfl

theorem Update.not_opens {update : Update} (h : Update.plain update = true)
    (deadline : Option Nat) :
    update ≠ .openFlight deadline := by
  rintro rfl
  cases h

/-- A flight is open only behind the fence, and the outstanding writes respect it. -/
structure Fenced (s : State) : Prop where
  behind : (fenceOf s.inner).opened = true → (fenceOf s.inner).draining = true
  writes : Monitor.Confined Update.onFence Update.Behind s.outstanding (fenceOf s.inner)

/-- Plain writes may be decided on before the fence is set. -/
theorem confined_of_open {updates : List Update} {fence : Fence} (hopen : fence.draining = false)
    (hplain : ∀ update ∈ updates, Update.plain update = true) :
    Monitor.Confined Update.onFence Update.Behind updates fence := by
  refine Monitor.confined_of_forall (fun fence => fence.draining = false) ?_ hopen
  intro update hupdate fence hfence
  have hupdate := hplain update hupdate
  refine ⟨⟨?_, ?_⟩, ?_⟩
  · intro hdraining
    simp [hfence] at hdraining
  · intro deadline heq
    exact absurd heq (Update.not_opens hupdate deadline)
  · rw [Update.on_fence_plain hupdate]
    exact hfence

/-- Plain quiet writes may be made at any time. -/
theorem confined_of_quiet {updates : List Update} (fence : Fence)
    (hplain : ∀ update ∈ updates, Update.plain update = true ∧ Update.quiet update = true) :
    Monitor.Confined Update.onFence Update.Behind updates fence := by
  refine Monitor.confined_of_forall (fun _ => True) ?_ trivial
  intro update hupdate fence _
  obtain ⟨hplain, hquiet⟩ := hplain update hupdate
  exact ⟨⟨fun _ => hquiet, fun deadline heq => absurd heq (Update.not_opens hplain deadline)⟩,
    trivial⟩

/-- What a call decides to write respects the fence it found. -/
theorem Section.behind {inner : Inner} {call next : Call} {taken : Nat} {updates : List Update}
    (h : Section inner call taken updates next) :
    Monitor.Confined Update.onFence Update.Behind updates (fenceOf inner) := by
  cases h with
  | loadRefused | notReserved | notPublished | notRetracted | notRegistered | notUnloaded
  | deleted | workRefused => trivial
  | loadAdmitted h =>
      obtain ⟨hopen, _, rfl⟩ := Inner.admit_work_some h
      exact confined_of_open hopen (by simp [Update.plain])
  | workAdmitted h =>
      obtain ⟨hopen, _, rfl⟩ := Inner.admit_work_some h
      exact confined_of_open hopen (by simp [Update.plain])
  | reserved h =>
      obtain ⟨hopen, _, _, rfl⟩ := Inner.reserve_ok h
      exact confined_of_open hopen (by simp [Update.plain])
  | published _ h =>
      obtain ⟨hopen, _, _, rfl⟩ := Inner.register_reserved_engine_ok h
      exact confined_of_open hopen (by simp [Update.plain])
  | unwound =>
      refine confined_of_quiet _ ?_
      unfold Inner.dropReservation
      split <;> simp [Update.plain, Update.quiet]
  | retracted h =>
      obtain ⟨hopen, _, _, _, rfl⟩ := Inner.unload_ok h
      exact confined_of_open hopen (by simp [Update.plain])
  | registered _ _ h =>
      obtain ⟨hopen, _, _, rfl⟩ := Inner.register_engine_ok h
      exact confined_of_open hopen (by simp [Update.plain])
  | unloaded h =>
      obtain ⟨hopen, _, _, _, rfl⟩ := Inner.unload_ok h
      exact confined_of_open hopen (by simp [Update.plain])
  | shutdown =>
      unfold Inner.beginShutdown
      split
      · exact confined_of_quiet _ (by simp [Update.plain, Update.quiet])
      case h_2 hflight =>
        refine ⟨⟨?_, ?_⟩, ⟨?_, ?_⟩, ⟨?_, ?_⟩, ⟨?_, ?_⟩, trivial⟩ <;>
          simp [Update.quiet, Update.onFence, fenceOf, hflight]

/-- The fence is respected if it and the outstanding writes are what they were. -/
theorem Fenced.congr {s s' : State} (hs : Fenced s) (hfence : fenceOf s'.inner = fenceOf s.inner)
    (hwrites : s'.outstanding = s.outstanding) : Fenced s' where
  behind := by
    rw [hfence]
    exact hs.behind
  writes := by
    rw [hfence, hwrites]
    exact hs.writes

/-- Every step respects the fence. -/
theorem fenced_preserved : Transition.Preserves Next Fenced := by
  rintro s s' hs ⟨actor, hstep⟩
  cases hstep with
  | enter hfree h => exact ⟨hs.behind, h.behind⟩
  | @write _ _ update updates h =>
      obtain ⟨hbehind, hwrites⟩ := hs
      simp only [State.outstanding, h] at hwrites
      have hfence := fence_of_apply s.inner update
      constructor
      · show (fenceOf (update.apply s.inner)).opened = true →
          (fenceOf (update.apply s.inner)).draining = true
        rw [hfence]
        exact hwrites.1.keeps hbehind
      · show Monitor.Confined _ _ updates (fenceOf (update.apply s.inner))
        rw [hfence]
        exact hwrites.2
  | leave h hcall => exact ⟨hs.behind, trivial⟩
  | move h =>
      refine hs.congr ?_ rfl
      simp only [fenceOf, h.registry, h.flight]
  | finish h hstep =>
      refine hs.congr ?_ rfl
      simp only [fenceOf, hstep.draining, h, Option.isSome_some]
  | finishEnter hfree h htask =>
      have hfence : ∀ flight, fenceOf { s.inner with flight := some flight } = fenceOf s.inner := by
        intro flight
        simp only [fenceOf, h, Option.isSome_some]
      constructor
      · rw [hfence]
        exact hs.behind
      · rw [hfence]
        show Monitor.Confined _ _ Inner.releaseRegistries _
        exact confined_of_quiet _ (by simp [Inner.releaseRegistries, Update.plain, Update.quiet])
  | finishLeave h hflight htask =>
      have hfence : ∀ flight, fenceOf { s.inner with flight := some flight } = fenceOf s.inner := by
        intro flight
        simp only [fenceOf, hflight, Option.isSome_some]
      constructor
      · rw [hfence]
        exact hs.behind
      · trivial
  | begin | lockLoaded | recordFenced | recordOpen | record | fenceApplication | clearLoaded
  | unloadRecord | tick | lease => exact hs.congr rfl rfl

theorem fenced_initial : Fenced initial where
  behind := by simp [fenceOf, initial, Inner.new]
  writes := trivial

/-- An open flight is behind the fence. -/
theorem Fenced.draining {s : State} (hs : Fenced s) {flight : ShutdownFlight}
    (h : s.inner.flight = some flight) : s.inner.registry.draining = true :=
  hs.behind (by simp [fenceOf, h])

end EmbeddingServer.Lifecycle
