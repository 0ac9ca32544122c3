import EmbeddingServer.Core.Control
import EmbeddingServer.Lib.Transition
import EmbeddingServer.Runtime.Registry
import Mathlib.Data.Nat.Init

/-!
# The shutdown coordinator and those who wait for it

`ShutdownCoordinator` with its mutex, its condition variable and the permits it hands out. What a
thread does under the mutex is one step; between two steps of a call of `wait` any number of
admissions, drops, calls of `begin` and of `force_stop` and other waiters make a step, and time
passes. A sleeping thread is woken by `notify_all`, by its timer once the time has passed, or for
no reason.

`Coordinated` is what every state of a run is like, and `Later` what two states of a run have to
do with one another. A wait that is still going on when the coordinator stops returns `true`,
even if its timer has fired.

The mutex is never poisoned: nothing panics under it. A permit holds a reference to the
coordinator, and the process aborts before there are more than `isize::MAX` of these.
-/

namespace EmbeddingServer

/-- `usize::MAX`. -/
def usizeMax : Nat := 2 ^ wordBits - 1

/-- `isize::MAX`, the largest number of references that an `Arc` counts. -/
def isizeMax : Nat := 2 ^ (wordBits - 1) - 1

/-- `ShutdownCoordinator::admit`. -/
def ShutdownCoordinator.admitPermit (coordinator : ShutdownCoordinator) :
    Option ShutdownCoordinator :=
  if coordinator.shutdown ≠ .running then none
  else some { coordinator with active := min (coordinator.active + 1) usizeMax }

namespace Coordinator

open Transition

/-! ## Calls of `wait` -/

/-- Program points of `wait`. -/
inductive WaitPc where
  /-- `lock` is next. -/
  | locking
  /-- In `wait_timeout`, without the lock. -/
  | sleeping
  /-- Woken; `wait_timeout` takes the lock again before it returns. -/
  | woken (timedOut : Bool)
  | returned (result : Bool)
  deriving DecidableEq, Repr

/-- A call of `wait`. -/
structure Wait where
  started : Instant
  timeout : Nat
  pc : WaitPc
  deriving DecidableEq, Repr

/-- The `while` loop from its test on, until it sleeps or returns. -/
def Wait.test (wait : Wait) (shutdown : ShutdownState) (now : Instant) : Wait :=
  if shutdown = .stopped then { wait with pc := .returned true }
  else if wait.timeout - (now - wait.started) = 0 then { wait with pc := .returned false }
  else { wait with pc := .sleeping }

/-- What follows the return of `wait_timeout`. -/
def Wait.resume (wait : Wait) (timedOut : Bool) (shutdown : ShutdownState) (now : Instant) : Wait :=
  if timedOut ∧ shutdown ≠ .stopped then { wait with pc := .returned false }
  else wait.test shutdown now

/-- A waiter is woken by `notify_all`, if it sleeps. -/
def Wait.notified (wait : Wait) : Wait :=
  if wait.pc = .sleeping then { wait with pc := .woken false } else wait

/-! ## The threads together -/

/-- The coordinator, its permits and the calls of `wait`. -/
structure World where
  coordinator : ShutdownCoordinator
  /-- The permits that were not dropped yet. -/
  permits : Nat
  waits : Nat → Option Wait
  now : Instant
  /-- `force_stop` was called. -/
  forced : Bool

/-- `ShutdownCoordinator::default`, before anybody uses it. -/
def initial (now : Instant) : World where
  coordinator := { shutdown := .running, active := 0 }
  permits := 0
  waits := fun _ => none
  now := now
  forced := false

/-- `notify_all`. -/
def World.notifyAll (s : World) : World :=
  { s with waits := fun id => (s.waits id).map Wait.notified }

/-- A call of `wait` moves on. -/
def World.withWait (s : World) (id : Nat) (wait : Wait) : World :=
  { s with waits := Function.update s.waits id (some wait) }

@[simp]
theorem World.with_wait_waits (s : World) (id : Nat) (wait : Wait) :
    (s.withWait id wait).waits = Function.update s.waits id (some wait) :=
  rfl

@[simp]
theorem World.notify_all_waits (s : World) (id : Nat) :
    s.notifyAll.waits id = (s.waits id).map Wait.notified :=
  rfl

/-- A step of one of the threads. -/
inductive Step : World → World → Prop where
  | time {s : World} {later : Instant} (h : s.now ≤ later) : Step s { s with now := later }
  /-- `admit` that hands out a permit. -/
  | admitPermit {s : World} {coordinator : ShutdownCoordinator} (hclones : s.permits < isizeMax)
      (h : s.coordinator.admitPermit = some coordinator) :
      Step s { s with coordinator := coordinator, permits := s.permits + 1 }
  | begin {s : World} : Step s { s with coordinator := s.coordinator.begin }.notifyAll
  | forceStop {s : World} :
      Step s { s with coordinator := s.coordinator.forceStop, forced := true }.notifyAll
  /-- `WorkPermit::drop`. -/
  | drop {s : World} (h : 0 < s.permits) :
      Step s { s with coordinator := s.coordinator.release, permits := s.permits - 1 }.notifyAll
  /-- `wait` is called. -/
  | call {s : World} {id : Nat} (timeout : Nat) (hfree : s.waits id = none) :
      Step s (s.withWait id ⟨s.now, timeout, .locking⟩)
  | lock {s : World} {id : Nat} {wait : Wait} (hwait : s.waits id = some wait)
      (hpc : wait.pc = .locking) :
      Step s (s.withWait id (wait.test s.coordinator.shutdown s.now))
  /-- The time of `wait_timeout` is over. -/
  | timer {s : World} {id : Nat} {wait : Wait} (hwait : s.waits id = some wait)
      (hpc : wait.pc = .sleeping) (h : wait.started + wait.timeout ≤ s.now) :
      Step s (s.withWait id { wait with pc := .woken true })
  /-- A wake-up for no reason. -/
  | spurious {s : World} {id : Nat} {wait : Wait} (hwait : s.waits id = some wait)
      (hpc : wait.pc = .sleeping) : Step s (s.withWait id { wait with pc := .woken false })
  | resume {s : World} {id : Nat} {wait : Wait} (timedOut : Bool) (hwait : s.waits id = some wait)
      (hpc : wait.pc = .woken timedOut) :
      Step s (s.withWait id (wait.resume timedOut s.coordinator.shutdown s.now))

/-! ## The count of permits -/

/-- The coordinator accounts for the permits. -/
structure Counted (s : World) : Prop where
  active_eq : s.coordinator.active = s.permits
  permits_le : s.permits ≤ isizeMax
  draining_pos : s.coordinator.shutdown = .draining → 0 < s.permits
  stopped_cases : s.coordinator.shutdown = .stopped → s.forced = true ∨ s.permits = 0
  forced_stopped : s.forced = true → s.coordinator.shutdown = .stopped

@[simp]
theorem World.notify_all_coordinator (s : World) : s.notifyAll.coordinator = s.coordinator :=
  rfl

@[simp]
theorem World.notify_all_permits (s : World) : s.notifyAll.permits = s.permits :=
  rfl

@[simp]
theorem World.notify_all_forced (s : World) : s.notifyAll.forced = s.forced :=
  rfl

/-- Waiters do not matter for the count. -/
theorem Counted.congr {s s' : World} (h : Counted s) (hcoordinator : s'.coordinator = s.coordinator)
    (hpermits : s'.permits = s.permits) (hforced : s'.forced = s.forced) : Counted s' := by
  obtain ⟨hactive, hle, hdraining, hstopped, hterminal⟩ := h
  exact ⟨by rw [hcoordinator, hpermits, hactive], by rw [hpermits]; exact hle,
    by rw [hcoordinator, hpermits]; exact hdraining,
    by rw [hcoordinator, hpermits, hforced]; exact hstopped,
    by rw [hcoordinator, hforced]; exact hterminal⟩

/-- What a successful admission leaves. -/
theorem admit_some {coordinator next : ShutdownCoordinator}
    (h : coordinator.admitPermit = some next) :
    coordinator.shutdown = .running ∧ next.shutdown = .running ∧
      next.active = min (coordinator.active + 1) usizeMax := by
  unfold ShutdownCoordinator.admitPermit at h
  split at h
  · cases h
  · rename_i hrunning
    cases h
    exact ⟨not_not.mp hrunning, not_not.mp hrunning, rfl⟩

/-- There are fewer references than words can count. -/
theorem isize_max_lt_usize_max : isizeMax < usizeMax := by
  decide

/-- `begin` stops a coordinator without work and drains the others. -/
theorem begin_shutdown (coordinator : ShutdownCoordinator) :
    (coordinator.active = 0 ∧ coordinator.begin.shutdown = .stopped) ∨
      (0 < coordinator.active ∧ coordinator.begin.shutdown ≠ .running ∧
        (coordinator.begin.shutdown = .stopped → coordinator.shutdown = .stopped)) := by
  obtain ⟨shutdown, active⟩ := coordinator
  unfold ShutdownCoordinator.begin
  by_cases hactive : active = 0
  · exact .inl ⟨hactive, by simp [hactive]⟩
  · refine .inr ⟨by show 0 < active; omega, ?_⟩
    cases shutdown <;> simp [hactive]

/-- A drop stops a coordinator that drains, if it was the last one. -/
theorem release_shutdown (coordinator : ShutdownCoordinator) :
    coordinator.release.shutdown =
      if coordinator.active - 1 = 0 ∧ coordinator.shutdown = .draining then .stopped
      else coordinator.shutdown :=
  rfl

theorem Counted.admit_permit {s : World} {coordinator : ShutdownCoordinator} (h : Counted s)
    (hclones : s.permits < isizeMax) (hgranted : s.coordinator.admitPermit = some coordinator) :
    Counted { s with coordinator := coordinator, permits := s.permits + 1 } := by
  obtain ⟨hrunning, hnext, hactive⟩ := admit_some hgranted
  have hmax := isize_max_lt_usize_max
  have hbefore := h.active_eq
  constructor
  · show coordinator.active = s.permits + 1
    omega
  · show s.permits + 1 ≤ isizeMax
    omega
  · intro _
    show 0 < s.permits + 1
    omega
  · intro hstopped
    rw [show coordinator.shutdown = .stopped from hstopped] at hnext
    cases hnext
  · intro hforced
    have hstopped := h.forced_stopped hforced
    rw [hrunning] at hstopped
    cases hstopped

theorem Counted.begin {s : World} (h : Counted s) :
    Counted { s with coordinator := s.coordinator.begin } := by
  have hactive := h.active_eq
  have hcases := begin_shutdown s.coordinator
  constructor
  · exact hactive
  · exact h.permits_le
  · intro hdraining
    show 0 < s.permits
    rcases hcases with ⟨_, hstopped⟩ | ⟨hpos, _⟩
    · rw [show s.coordinator.begin.shutdown = .draining from hdraining] at hstopped
      cases hstopped
    · omega
  · intro hstopped
    rcases hcases with ⟨hzero, _⟩ | ⟨_, _, hbefore⟩
    · right
      show s.permits = 0
      omega
    · exact h.stopped_cases (hbefore hstopped)
  · intro hforced
    have hstopped := h.forced_stopped hforced
    show s.coordinator.begin.shutdown = .stopped
    unfold ShutdownCoordinator.begin
    simp [hstopped]

theorem Counted.drop {s : World} (h : Counted s) (hpos : 0 < s.permits) :
    Counted { s with coordinator := s.coordinator.release, permits := s.permits - 1 } := by
  have hactive := h.active_eq
  have hle := h.permits_le
  have hshutdown := release_shutdown s.coordinator
  constructor
  · show s.coordinator.active - 1 = s.permits - 1
    omega
  · show s.permits - 1 ≤ isizeMax
    omega
  · intro hdraining
    show 0 < s.permits - 1
    rw [show s.coordinator.release.shutdown = .draining from hdraining] at hshutdown
    split at hshutdown
    · cases hshutdown
    · rename_i hmore
      have hone : s.coordinator.active - 1 ≠ 0 := fun hzero => hmore ⟨hzero, hshutdown.symm⟩
      omega
  · intro hstopped
    show s.forced = true ∨ s.permits - 1 = 0
    rw [show s.coordinator.release.shutdown = .stopped from hstopped] at hshutdown
    split at hshutdown
    · rename_i hlast
      right
      omega
    · rcases h.stopped_cases hshutdown.symm with hforced | hzero
      · exact .inl hforced
      · omega
  · intro hforced
    have hstopped := h.forced_stopped hforced
    show s.coordinator.release.shutdown = .stopped
    rw [hshutdown, hstopped]
    simp

/-- Every step keeps the count. -/
theorem counted_preserved : Preserves Step Counted := by
  intro s s' h hstep
  cases hstep with
  | time | call | lock | timer | spurious | resume => exact h.congr rfl rfl rfl
  | admitPermit hclones hgranted => exact h.admit_permit hclones hgranted
  | begin => exact h.begin.congr rfl rfl rfl
  | forceStop =>
      exact ⟨h.active_eq, h.permits_le, nofun, fun _ => .inl rfl, fun _ => rfl⟩
  | drop hpos => exact (h.drop hpos).congr rfl rfl rfl

/-! ## The waiters -/

/-- What a call of `wait` tells about the coordinator and the clock. -/
structure Wait.Truthful (wait : Wait) (shutdown : ShutdownState) (now : Instant) : Prop where
  started_le : wait.started ≤ now
  /-- Nobody sleeps beside a coordinator that has stopped. -/
  sleeping : wait.pc = .sleeping → shutdown ≠ .stopped
  returned_true : wait.pc = .returned true → shutdown = .stopped
  elapsed : wait.pc = .woken true ∨ wait.pc = .returned false → wait.started + wait.timeout ≤ now

/-- Every wait is truthful. -/
def Awake (s : World) : Prop :=
  ∀ id wait, s.waits id = some wait → wait.Truthful s.coordinator.shutdown s.now

section

variable {wait : Wait} {shutdown shutdown' : ShutdownState} {now : Instant}

theorem Wait.Truthful.later {now' : Instant} (h : wait.Truthful shutdown now) (hnow : now ≤ now') :
    wait.Truthful shutdown now' :=
  ⟨Nat.le_trans h.started_le hnow, h.sleeping, h.returned_true,
    fun hpc => Nat.le_trans (h.elapsed hpc) hnow⟩

/-- `notify_all` lets the coordinator stop in the same step. -/
theorem Wait.Truthful.notified (h : wait.Truthful shutdown now)
    (hstop : shutdown = .stopped → shutdown' = .stopped) :
    wait.notified.Truthful shutdown' now := by
  unfold Wait.notified
  split
  · exact ⟨h.started_le, nofun, nofun, fun hpc => hpc.elim nofun nofun⟩
  · rename_i hpc
    exact ⟨h.started_le, fun hsleeping => absurd hsleeping hpc,
      fun hresult => hstop (h.returned_true hresult), h.elapsed⟩

/-- The test of the loop, by what it finds. -/
theorem Wait.truthful_test (hstarted : wait.started ≤ now) :
    (wait.test shutdown now).Truthful shutdown now := by
  unfold Wait.test
  split
  · rename_i hstopped
    exact ⟨hstarted, nofun, fun _ => hstopped, fun hpc => hpc.elim nofun nofun⟩
  · rename_i hrunning
    split
    · rename_i hspent
      refine ⟨hstarted, nofun, nofun, fun _ => ?_⟩
      show wait.started + wait.timeout ≤ now
      exact Nat.add_le_of_le_sub' hstarted (Nat.le_of_sub_eq_zero hspent)
    · exact ⟨hstarted, fun _ => hrunning, nofun, fun hpc => hpc.elim nofun nofun⟩

theorem Wait.Truthful.resume {timedOut : Bool} (h : wait.Truthful shutdown now)
    (hpc : wait.pc = .woken timedOut) :
    (wait.resume timedOut shutdown now).Truthful shutdown now := by
  unfold Wait.resume
  split
  · rename_i hlate
    refine ⟨h.started_le, nofun, nofun, fun _ => ?_⟩
    show wait.started + wait.timeout ≤ now
    exact h.elapsed (.inl (by rw [hpc, hlate.1]))
  · exact Wait.truthful_test h.started_le

/-- Beside a stopped coordinator the test returns `true`. -/
theorem Wait.test_stopped (wait : Wait) (now : Instant) :
    wait.test .stopped now = { wait with pc := .returned true } :=
  rfl

/-- Beside a stopped coordinator the wait returns `true`, even if its time is over. -/
theorem Wait.resume_stopped (wait : Wait) (timedOut : Bool) (now : Instant) :
    wait.resume timedOut .stopped now = { wait with pc := .returned true } := by
  simp [Wait.resume, Wait.test_stopped]

end

/-- A wait that moves on truthfully leaves the others as they are. -/
theorem Awake.with_wait {s : World} {id : Nat} {wait : Wait} (h : Awake s)
    (hwait : wait.Truthful s.coordinator.shutdown s.now) : Awake (s.withWait id wait) := by
  intro other otherWait hother
  show otherWait.Truthful s.coordinator.shutdown s.now
  rw [World.with_wait_waits] at hother
  by_cases heq : other = id
  · subst heq
    rw [Function.update_self, Option.some.injEq] at hother
    exact hother ▸ hwait
  · rw [Function.update_of_ne heq] at hother
    exact h other otherWait hother

/-- A coordinator that changes notifies everybody. -/
theorem Awake.notify_all {s s' : World} (h : Awake s) (hwaits : s'.waits = s.waits)
    (hnow : s'.now = s.now)
    (hstop : s.coordinator.shutdown = .stopped → s'.coordinator.shutdown = .stopped) :
    Awake s'.notifyAll := by
  intro id wait hwait
  show wait.Truthful s'.coordinator.shutdown s'.now
  rw [World.notify_all_waits, Option.map_eq_some_iff] at hwait
  obtain ⟨before, hbefore, rfl⟩ := hwait
  rw [hwaits] at hbefore
  rw [hnow]
  exact (h id before hbefore).notified hstop

/-- `begin` leaves a stopped coordinator stopped. -/
theorem begin_stopped {coordinator : ShutdownCoordinator} (h : coordinator.shutdown = .stopped) :
    coordinator.begin.shutdown = .stopped := by
  unfold ShutdownCoordinator.begin
  simp [h]

/-- A drop leaves a stopped coordinator stopped. -/
theorem release_stopped {coordinator : ShutdownCoordinator} (h : coordinator.shutdown = .stopped) :
    coordinator.release.shutdown = .stopped := by
  rw [release_shutdown, h]
  simp

/-- Every step keeps the waits truthful. -/
theorem awake_preserved : Preserves Step Awake := by
  intro s s' h hstep
  cases hstep with
  | time hlater => exact fun id wait hwait => (h id wait hwait).later hlater
  | admitPermit hclones hgranted =>
      obtain ⟨hrunning, hnext, _⟩ := admit_some hgranted
      intro id wait hwait
      show wait.Truthful _ s.now
      rw [hnext, ← hrunning]
      exact h id wait hwait
  | begin => exact h.notify_all rfl rfl begin_stopped
  | forceStop => exact h.notify_all rfl rfl fun _ => rfl
  | drop => exact h.notify_all rfl rfl release_stopped
  | call timeout hfree =>
      exact h.with_wait ⟨Nat.le_refl _, nofun, nofun, fun hpc => hpc.elim nofun nofun⟩
  | lock hwait hpc => exact h.with_wait (Wait.truthful_test (h _ _ hwait).started_le)
  | timer hwait hpc hlate =>
      exact h.with_wait ⟨(h _ _ hwait).started_le, nofun, nofun, fun _ => hlate⟩
  | spurious hwait hpc =>
      exact h.with_wait
        ⟨(h _ _ hwait).started_le, nofun, nofun, fun hpc => hpc.elim nofun nofun⟩
  | resume timedOut hwait hpc => exact h.with_wait ((h _ _ hwait).resume hpc)

/-! ## Two states of a run -/

/-- What a later state of a run has to do with an earlier one. -/
structure Later (s s' : World) : Prop where
  stopped : s.coordinator.shutdown = .stopped → s'.coordinator.shutdown = .stopped
  /-- Nothing is admitted any more. -/
  closed : s.coordinator.shutdown ≠ .running →
    s'.coordinator.shutdown ≠ .running ∧ s'.permits ≤ s.permits
  /-- The result of a wait stays. -/
  returned : ∀ id wait result, s.waits id = some wait → wait.pc = .returned result →
    s'.waits id = some wait
  /-- After the stop no wait gives up. -/
  gave_up : s.coordinator.shutdown = .stopped → ∀ id wait, s'.waits id = some wait →
    wait.pc = .returned false → s.waits id = some wait

theorem Later.refl (s : World) : Later s s :=
  ⟨id, fun h => ⟨h, Nat.le_refl _⟩, fun _ _ _ hwait _ => hwait, fun _ _ _ hwait _ => hwait⟩

theorem Later.trans {s s' s'' : World} (h : Later s s') (h' : Later s' s'') : Later s s'' := by
  refine ⟨fun hstopped => h'.stopped (h.stopped hstopped), fun hclosed => ?_, ?_, ?_⟩
  · obtain ⟨hbetween, hle⟩ := h.closed hclosed
    obtain ⟨hfinal, hle'⟩ := h'.closed hbetween
    exact ⟨hfinal, by omega⟩
  · intro id wait result hwait hpc
    exact h'.returned id wait result (h.returned id wait result hwait hpc) hpc
  · intro hstopped id wait hwait hpc
    exact h.gave_up hstopped id wait (h'.gave_up (h.stopped hstopped) id wait hwait hpc) hpc

/-- A wait that moves on has not returned, and beside a stopped coordinator it does not give up. -/
theorem Later.with_wait {s : World} {id : Nat} {wait : Wait}
    (hbefore : ∀ before result, s.waits id = some before → before.pc ≠ .returned result)
    (hafter : s.coordinator.shutdown = .stopped → wait.pc ≠ .returned false) :
    Later s (s.withWait id wait) := by
  refine ⟨fun hstopped => hstopped, fun hclosed => ⟨hclosed, Nat.le_refl _⟩, ?_, ?_⟩
  · intro other before result hother hpc
    have hne : other ≠ id := fun heq => hbefore before result (heq ▸ hother) hpc
    rw [World.with_wait_waits, Function.update_of_ne hne, hother]
  · intro hstopped other after hother hpc
    rw [World.with_wait_waits] at hother
    by_cases heq : other = id
    · subst heq
      rw [Function.update_self, Option.some.injEq] at hother
      exact absurd hpc (hother ▸ hafter hstopped)
    · rwa [Function.update_of_ne heq] at hother

/-- A notified wait has returned only if it had before. -/
theorem Wait.notified_returned {wait : Wait} {result : Bool} :
    wait.notified.pc = .returned result ↔ wait.pc = .returned result := by
  unfold Wait.notified
  split
  · rename_i hpc
    rw [hpc]
    exact ⟨nofun, nofun⟩
  · rfl

/-- A wait that has returned does not hear a notification. -/
theorem Wait.notified_eq {wait : Wait} {result : Bool} (h : wait.pc = .returned result) :
    wait.notified = wait := by
  unfold Wait.notified
  rw [if_neg]
  rw [h]
  exact WaitPc.noConfusion

/-- A change of the coordinator that notifies everybody. -/
theorem Later.notify_all {s s' : World} (hwaits : s'.waits = s.waits)
    (hstop : s.coordinator.shutdown = .stopped → s'.coordinator.shutdown = .stopped)
    (hclosed : s.coordinator.shutdown ≠ .running → s'.coordinator.shutdown ≠ .running)
    (hpermits : s'.permits ≤ s.permits) : Later s s'.notifyAll := by
  refine ⟨hstop, fun h => ⟨hclosed h, hpermits⟩, ?_, ?_⟩
  · intro id wait result hwait hpc
    rw [World.notify_all_waits, hwaits, hwait, Option.map_some, Wait.notified_eq hpc]
  · intro _ id wait hwait hpc
    rw [World.notify_all_waits, Option.map_eq_some_iff] at hwait
    obtain ⟨before, hbefore, rfl⟩ := hwait
    rw [hwaits] at hbefore
    rw [Wait.notified_returned] at hpc
    rw [hbefore, Wait.notified_eq hpc]

/-- Every step leads to a later state. -/
theorem later_of_step {s s' : World} (hstep : Step s s') : Later s s' := by
  cases hstep with
  | time => exact ⟨id, fun h => ⟨h, Nat.le_refl _⟩, fun _ _ _ h _ => h, fun _ _ _ h _ => h⟩
  | admitPermit hclones hgranted =>
      obtain ⟨hrunning, hnext, _⟩ := admit_some hgranted
      refine ⟨fun hstopped => ?_, fun hclosed => absurd hrunning hclosed, fun _ _ _ h _ => h,
        fun _ _ _ h _ => h⟩
      rw [hrunning] at hstopped
      cases hstopped
  | begin =>
      refine Later.notify_all rfl begin_stopped (fun hclosed => ?_) (Nat.le_refl _)
      rcases begin_shutdown s.coordinator with ⟨_, hstopped⟩ | ⟨_, hnot, _⟩
      · show s.coordinator.begin.shutdown ≠ .running
        rw [hstopped]
        exact ShutdownState.noConfusion
      · exact hnot
  | forceStop =>
      exact Later.notify_all rfl (fun _ => rfl) (fun _ => ShutdownState.noConfusion) (Nat.le_refl _)
  | drop hpos =>
      refine Later.notify_all rfl release_stopped (fun hclosed => ?_) (Nat.sub_le _ _)
      show s.coordinator.release.shutdown ≠ .running
      rw [release_shutdown]
      split
      · exact ShutdownState.noConfusion
      · exact hclosed
  | call timeout hfree =>
      refine Later.with_wait (fun before result hbefore => ?_) fun _ => WaitPc.noConfusion
      -- A wait that begins had not returned before.
      rw [hfree] at hbefore
      cases hbefore
  | lock hwait hpc =>
      refine Later.with_wait (fun before result hbefore => ?_) fun hstopped => ?_
      · rw [hwait, Option.some.injEq] at hbefore
        rw [← hbefore, hpc]
        exact WaitPc.noConfusion
      · rw [hstopped, Wait.test_stopped]
        simp
  | timer hwait hpc =>
      refine Later.with_wait (fun before result hbefore => ?_) fun _ => WaitPc.noConfusion
      rw [hwait, Option.some.injEq] at hbefore
      rw [← hbefore, hpc]
      exact WaitPc.noConfusion
  | spurious hwait hpc =>
      refine Later.with_wait (fun before result hbefore => ?_) fun _ => WaitPc.noConfusion
      rw [hwait, Option.some.injEq] at hbefore
      rw [← hbefore, hpc]
      exact WaitPc.noConfusion
  | resume timedOut hwait hpc =>
      refine Later.with_wait (fun before result hbefore => ?_) fun hstopped => ?_
      · rw [hwait, Option.some.injEq] at hbefore
        rw [← hbefore, hpc]
        exact WaitPc.noConfusion
      · rw [hstopped, Wait.resume_stopped]
        simp

theorem later_of_run {s s' : World} (hrun : Run Step s s') : Later s s' := by
  induction hrun with
  | refl => exact .refl s
  | tail _ hstep ih => exact ih.trans (later_of_step hstep)

/-! ## Every run -/

/-- Nothing is true of a coordinator that nobody has used. -/
theorem initial_counted (start : Instant) : Counted (initial start) :=
  ⟨rfl, Nat.zero_le _, nofun, nofun, nofun⟩

theorem initial_awake (start : Instant) : Awake (initial start) := by
  intro id wait hwait
  cases hwait

/-- A wait beside a stopped coordinator can return `true` in its next step. -/
theorem Awake.returns {s : World} {id : Nat} {wait : Wait} (h : Awake s)
    (hstopped : s.coordinator.shutdown = .stopped) (hwait : s.waits id = some wait)
    (hpc : ∀ result, wait.pc ≠ .returned result) :
    Step s (s.withWait id { wait with pc := .returned true }) := by
  cases hcase : wait.pc with
  | locking =>
      have hstep := Step.lock hwait hcase
      rwa [hstopped, Wait.test_stopped] at hstep
  | sleeping => exact absurd hstopped ((h id wait hwait).sleeping hcase)
  | woken timedOut =>
      have hstep := Step.resume timedOut hwait hcase
      rwa [hstopped, Wait.resume_stopped] at hstep
  | returned result => exact absurd hcase (hpc result)

/-- The coordinator over every run. It counts the live permits exactly; it stops only when the
last one was dropped or by force, stays stopped, and admits nothing once the shutdown has begun.
A wait returns `true` only beside a stopped coordinator and `false` only when its time is over;
once the coordinator has stopped nobody sleeps, every wait can return at once, and none gives up. -/
theorem coordinator_run (start : Instant) {s s' : World} (hrun : Run Step (initial start) s)
    (hlater : Run Step s s') :
    Counted s ∧ Awake s ∧ Later s s' ∧
      ∀ id wait, s.coordinator.shutdown = .stopped → s.waits id = some wait →
        (∀ result, wait.pc ≠ .returned result) →
          Step s (s.withWait id { wait with pc := .returned true }) := by
  have hawake : Awake s := awake_preserved.run hrun (initial_awake start)
  exact ⟨counted_preserved.run hrun (initial_counted start), hawake, later_of_run hlater,
    fun _ _ hstopped hwait hpc => hawake.returns hstopped hwait hpc⟩

/-- A wait of five units whose timer fires before the last permit is dropped: it is late, and
still the theorem lets it return `true`. -/
theorem coordinator_run_late : ∃ s s', Run Step (initial 0) s ∧ Run Step s s' ∧
    s.waits 0 = some ⟨0, 5, .woken true⟩ ∧ s.now = 7 ∧ s.coordinator.shutdown = .stopped ∧
    Counted s ∧ Later s s' ∧ s'.waits 0 = some ⟨0, 5, .returned true⟩ := by
  have hrun :=
    ((((((Relation.ReflTransGen.refl (a := initial 0)).tail (.admitPermit (by decide) rfl)).tail
    (@Step.call _ 0 5 rfl)).tail .begin).tail (@Step.lock _ 0 ⟨0, 5, .locking⟩ rfl rfl)).tail
    (@Step.time _ 7 (by decide))).tail (@Step.timer _ 0 ⟨0, 5, .sleeping⟩ rfl rfl (by decide))
  have hstopped := hrun.tail (.drop (by decide))
  obtain ⟨hcounted, _, _, hreturns⟩ := coordinator_run 0 hstopped .refl
  have hreturn := hreturns 0 ⟨0, 5, .woken true⟩ rfl rfl fun result => WaitPc.noConfusion
  have hlater := Relation.ReflTransGen.single hreturn
  exact ⟨_, _, hstopped, hlater, rfl, rfl, rfl, hcounted,
    (coordinator_run 0 hstopped hlater).2.2.1, rfl⟩

end Coordinator

end EmbeddingServer
