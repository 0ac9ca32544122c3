import EmbeddingServer.Core.Control
import EmbeddingServer.Lib.Notify
import EmbeddingServer.Lib.Transition

/-!
# Waiting for the drain

`wait_for_drain` against the permits that are dropped meanwhile. Admission is closed, so the count
of admitted work only falls. A drop counts down first and notifies afterwards, if it was the last
one; between two steps of the waiter any number of drops make a step, the deadline is updated, its
sender is dropped, and time passes.

The invariant is `Watched`: once the waiter has seen work, a count of zero means that the waiter
has been reached by a notification, or that the last drop has yet to notify. The first load of the
counter comes after the registration, which is what makes it hold.
-/

namespace EmbeddingServer.DrainWait

open Transition

/-- Program points of `wait_for_drain`. -/
inductive DrainPc where
  /-- `zero_latch.notified()` and `enable` are next. -/
  | head
  /-- `*deadline.borrow()` is next. -/
  | registered
  /-- `Instant::now()` is next, if there is a deadline. -/
  | read (current : Option Instant)
  /-- `admitted.load` is next. -/
  | unexpired (current : Option Instant)
  /-- The `select!` is polled: `deadline.changed()` is next. -/
  | select (timer : Option Instant)
  /-- The timer is polled next, if there is one. -/
  | sleep (timer : Option Instant)
  /-- `notified` is polled next. -/
  | latch (timer : Option Instant)
  /-- The task has used up its budget and is scheduled again. -/
  | yielded (timer : Option Instant)
  /-- The poll has returned `Pending`. -/
  | blocked (timer : Option Instant)
  | returned (drained : Bool)
  deriving DecidableEq, Repr

/-- What the waiter, the permits and the callers of `shutdown` share. -/
structure DrainState where
  /-- `admitted`. -/
  admitted : Nat
  /-- The drops that counted down to zero and have yet to call `notify_one`. -/
  notifying : Nat
  /-- `zero_latch`. -/
  latch : Notify
  now : Instant
  /-- The value of the watch. -/
  deadline : Option Instant
  /-- The receiver has not seen the value of the watch by `changed`. -/
  unseen : Bool
  /-- The sender of the watch was dropped. -/
  closed : Bool
  pc : DrainPc
  deriving DecidableEq, Repr

/-- The waiter leaves the iteration for another point. -/
def DrainState.leave (s : DrainState) (forward : Bool) (pc : DrainPc) : DrainState :=
  { s with latch := s.latch.leave forward, pc := pc }

/-- A step of the waiter or of its surroundings. Whether a permit that was delivered to a waiter
that leaves is passed on is left open. -/
inductive DrainStep : DrainState → DrainState → Prop where
  /-- `RuntimeWorkPermit::drop`, the count. -/
  | release {s : DrainState} (h : 0 < s.admitted) :
      DrainStep s
        { s with
          admitted := s.admitted - 1
          notifying := if s.admitted = 1 then s.notifying + 1 else s.notifying }
  /-- `RuntimeWorkPermit::drop`, the notification. -/
  | notify {s : DrainState} (h : 0 < s.notifying) :
      DrainStep s { s with notifying := s.notifying - 1, latch := s.latch.notifyOne }
  | time {s : DrainState} {later : Instant} (h : s.now ≤ later) :
      DrainStep s { s with now := later }
  /-- `deadline.send_if_modified`. -/
  | update {s : DrainState} (deadline : Option Instant) :
      DrainStep s { s with deadline := deadline, unseen := true }
  | close {s : DrainState} : DrainStep s { s with closed := true }
  | enable {s : DrainState} (hpc : s.pc = .head) :
      DrainStep s { s with latch := s.latch.enable, pc := .registered }
  | borrow {s : DrainState} (hpc : s.pc = .registered) :
      DrainStep s { s with pc := .read s.deadline }
  | expired {s : DrainState} {deadline : Instant} (forward : Bool)
      (hpc : s.pc = .read (some deadline)) (h : deadline ≤ s.now) :
      DrainStep s (s.leave forward (.returned false))
  | inTime {s : DrainState} {current : Option Instant} (hpc : s.pc = .read current)
      (h : ∀ deadline, current = some deadline → s.now < deadline) :
      DrainStep s { s with pc := .unexpired current }
  | drained {s : DrainState} {current : Option Instant} (forward : Bool)
      (hpc : s.pc = .unexpired current) (h : s.admitted = 0) :
      DrainStep s (s.leave forward (.returned true))
  | busy {s : DrainState} {current : Option Instant} (hpc : s.pc = .unexpired current)
      (h : s.admitted ≠ 0) : DrainStep s { s with pc := .select current }
  | changed {s : DrainState} {timer : Option Instant} (forward : Bool) (hpc : s.pc = .select timer)
      (h : s.unseen = true) : DrainStep s { s.leave forward .head with unseen := false }
  | abandoned {s : DrainState} {timer : Option Instant} (forward : Bool)
      (hpc : s.pc = .select timer) (h : s.unseen = false) (hclosed : s.closed = true) :
      DrainStep s (s.leave forward (.returned false))
  | unchanged {s : DrainState} {timer : Option Instant} (hpc : s.pc = .select timer)
      (h : s.unseen = false) (hclosed : s.closed = false) :
      DrainStep s { s with pc := .sleep timer }
  | fired {s : DrainState} {deadline : Instant} (forward : Bool)
      (hpc : s.pc = .sleep (some deadline)) (h : deadline ≤ s.now) :
      DrainStep s (s.leave forward (.returned false))
  | asleep {s : DrainState} {timer : Option Instant} (hpc : s.pc = .sleep timer) :
      DrainStep s { s with pc := .latch timer }
  | notified {s : DrainState} {timer : Option Instant} (forward : Bool)
      (hpc : s.pc = .latch timer) (h : s.latch.poll.1 = true) :
      DrainStep s ({ s with latch := s.latch.poll.2 }.leave forward .head)
  | unnotified {s : DrainState} {timer : Option Instant} (hpc : s.pc = .latch timer)
      (h : s.latch.poll.1 = false) :
      DrainStep s { s with latch := s.latch.poll.2, pc := .blocked timer }
  /-- `select!` yields when the budget of the task is used up. -/
  | depleted {s : DrainState} {timer : Option Instant} (hpc : s.pc = .select timer) :
      DrainStep s { s with pc := .yielded timer }
  | resumed {s : DrainState} {timer : Option Instant} (hpc : s.pc = .yielded timer) :
      DrainStep s { s with pc := .select timer }
  /-- The blocked task is polled again. -/
  | woken {s : DrainState} {timer : Option Instant} (hpc : s.pc = .blocked timer) :
      DrainStep s { s with pc := .select timer }

/-- The call of `wait_for_drain`. A permit may be stored from before, and drops from before may
have yet to notify. -/
structure DrainState.Called (s : DrainState) : Prop where
  pc : s.pc = .head
  waiter : s.latch.waiter = .absent

/-! ## What a blocked waiter waits for -/

/-- The waiter is blocked in its `select!`. -/
def DrainState.Blocked (s : DrainState) : Prop :=
  ∃ timer, s.pc = .blocked timer

/-- A notification was delivered, or a drop that counted down to zero is about to deliver one. -/
def DrainState.NotificationPending (s : DrainState) : Prop :=
  s.latch.waiter = .notified ∨ 0 < s.notifying

/-- The watch has changed or was closed. -/
def DrainState.DeadlinePending (s : DrainState) : Prop :=
  s.unseen = true ∨ s.closed = true

/-- The `select!` has a timer. -/
def DrainState.TimerPending (s : DrainState) : Prop :=
  ∃ deadline, s.pc = .blocked (some deadline)

/-- All work is done, and nothing will wake the waiter. -/
structure DrainState.Stuck (s : DrainState) : Prop where
  admitted : s.admitted = 0
  blocked : s.Blocked
  notification : ¬ s.NotificationPending
  deadline : ¬ s.DeadlinePending
  timer : ¬ s.TimerPending

/-! ## The invariant -/

/-- The points after a registration. -/
def DrainPc.registers : DrainPc → Bool
  | .head | .returned _ => false
  | .registered | .read _ | .unexpired _ | .select _ | .sleep _ | .latch _ | .yielded _
  | .blocked _ => true

/-- The points after a load of the counter that found work. -/
def DrainPc.foundWork : DrainPc → Bool
  | .head | .registered | .read _ | .unexpired _ | .returned _ => false
  | .select _ | .sleep _ | .latch _ | .yielded _ | .blocked _ => true

/-- The invariant of the wait. -/
structure Watched (s : DrainState) : Prop where
  registered : s.pc.registers = true → s.latch.waiter ≠ .absent
  reached : s.pc.foundWork = true → s.admitted = 0 → s.latch.Reached ∨ 0 < s.notifying
  blocked : s.Blocked → s.latch.waiter ≠ .served
  drained : s.pc = .returned true → s.admitted = 0

/-- A call starts the wait. -/
theorem DrainState.Called.watched {s : DrainState} (h : s.Called) : Watched s := by
  constructor
  · intro hpc
    rw [h.pc] at hpc
    cases hpc
  · intro hpc
    rw [h.pc] at hpc
    cases hpc
  · rintro ⟨timer, hpc⟩
    rw [h.pc] at hpc
    cases hpc
  · intro hpc
    rw [h.pc] at hpc
    cases hpc

/-- An iteration that is left leaves nothing to watch. -/
theorem Watched.left {s : DrainState} {pc : DrainPc} {forward : Bool}
    (hpc : pc.registers = false) (hdrained : pc = .returned true → s.admitted = 0) :
    Watched (s.leave forward pc) := by
  have hfound : pc.foundWork = false := by
    cases pc <;> first | rfl | cases hpc
  constructor
  · intro h
    exact absurd h (by rw [DrainState.leave, hpc]; decide)
  · intro h
    exact absurd h (by rw [DrainState.leave, hfound]; decide)
  · rintro ⟨timer, h⟩
    rw [DrainState.leave] at h
    dsimp only at h
    rw [h] at hpc
    cases hpc
  · exact hdrained

/-- The waiter goes on to another point of the same iteration that is not the blocked one. -/
theorem Watched.moved {s : DrainState} {pc : DrainPc} (h : Watched s)
    (hregisters : s.pc.registers = true) (hfound : pc.foundWork = true → s.pc.foundWork = true)
    (hblocked : ∀ timer, pc ≠ .blocked timer) (hreturned : pc ≠ .returned true) :
    Watched { s with pc := pc } where
  registered _ := h.registered hregisters
  reached hwork hzero := h.reached (hfound hwork) hzero
  blocked hpc := by
    obtain ⟨timer, hpc⟩ := hpc
    exact absurd hpc (hblocked timer)
  drained hpc := absurd hpc hreturned

/-- Every step keeps the wait watched. -/
theorem watched_preserved : Preserves DrainStep Watched := by
  intro s s' hs hstep
  cases hstep with
  | release hwork =>
      refine ⟨hs.registered, ?_, hs.blocked, ?_⟩
      · intro hfound hzero
        right
        -- The last release is the one that will notify.
        have hone : s.admitted = 1 := by
          dsimp only at hzero
          omega
        dsimp only
        rw [if_pos hone]
        exact Nat.succ_pos _
      · intro hpc
        have hzero := hs.drained hpc
        omega
  | notify hnotifying =>
      refine ⟨?_, ?_, ?_, hs.drained⟩
      · intro hpc
        exact Notify.notify_one_waiter (hs.registered hpc)
      · intro hfound _
        left
        refine Notify.notify_one_reached (hs.registered ?_)
        revert hfound
        cases s.pc <;> first | exact fun _ => rfl | exact fun h => (by cases h)
      · intro hblocked
        exact Notify.notify_one_unserved (hs.blocked hblocked)
  | time | update | close => exact ⟨hs.registered, hs.reached, hs.blocked, hs.drained⟩
  | enable hpc =>
      refine ⟨fun _ => Notify.enable_waiter _, fun h => (by cases h), ?_, fun h => (by cases h)⟩
      rintro ⟨timer, h⟩
      cases h
  | borrow hpc | inTime hpc _ =>
      refine hs.moved (by rw [hpc]; rfl) (fun h => (by cases h)) (fun _ h => (by cases h)) ?_
      exact fun h => (by cases h)
  | expired forward hpc _ | abandoned forward hpc _ _ | fired forward hpc _ =>
      exact .left rfl fun h => (by cases h)
  | drained forward hpc hzero => exact .left rfl fun _ => hzero
  | busy hpc hwork =>
      refine ⟨fun _ => hs.registered (by rw [hpc]; rfl), fun _ hzero => absurd hzero hwork, ?_,
        fun h => (by cases h)⟩
      rintro ⟨timer, h⟩
      cases h
  | changed forward hpc _ =>
      -- The forwarded notification is passed on, and the loop begins again.
      have hleft : Watched (s.leave forward .head) := .left rfl fun h => (by cases h)
      exact ⟨hleft.registered, hleft.reached, hleft.blocked, hleft.drained⟩
  | unchanged hpc _ _ | asleep hpc | depleted hpc | resumed hpc | woken hpc =>
      refine hs.moved (by rw [hpc]; rfl) (fun _ => by rw [hpc]; rfl) (fun _ h => (by cases h)) ?_
      exact fun h => (by cases h)
  | notified forward hpc _ => exact .left rfl fun h => (by cases h)
  | unnotified hpc hpoll =>
      obtain ⟨hsame, hunreached⟩ := Notify.poll_pending hpoll
      rw [hsame]
      refine ⟨fun _ => hs.registered (by rw [hpc]; rfl), ?_, ?_, fun h => (by cases h)⟩
      · exact fun _ hzero => hs.reached (by rw [hpc]; rfl) hzero
      · exact fun _ hserved => hunreached (.inr hserved)

/-! ## Nothing is missed -/

/-- A waiter that is blocked after all work is done has a notification coming, whatever the
deadline. -/
theorem Watched.notification {s : DrainState} (h : Watched s) (hblocked : s.Blocked)
    (hzero : s.admitted = 0) : s.NotificationPending := by
  have hfound : s.pc.foundWork = true := by
    obtain ⟨timer, hpc⟩ := hblocked
    rw [hpc]
    rfl
  rcases h.reached hfound hzero with (hnotified | hserved) | hnotifying
  · exact .inl hnotified
  · exact absurd hserved (h.blocked hblocked)
  · exact .inr hnotifying

/-- The notification that a drop owes reaches the blocked waiter. -/
theorem Watched.delivery {s : DrainState} (h : Watched s) (hblocked : s.Blocked) :
    s.latch.notifyOne.waiter = .notified := by
  have hregisters : s.pc.registers = true := by
    obtain ⟨timer, hpc⟩ := hblocked
    rw [hpc]
    rfl
  rcases Notify.notify_one_reached (h.registered hregisters) with hnotified | hserved
  · exact hnotified
  · exact absurd hserved (Notify.notify_one_unserved (h.blocked hblocked))

/-- The wait for the drain never misses the completion. In no state of a run is the count zero
while the waiter is blocked with neither a notification nor a change of the deadline nor a timer
to come; a notification that a drop has yet to make reaches the waiter; and the wait returns
`true` only when the count is zero. -/
theorem drain_wait_misses_nothing (start s : DrainState) (hstart : start.Called)
    (hrun : Run DrainStep start s) :
    ¬ s.Stuck ∧ (s.Blocked → s.latch.notifyOne.waiter = .notified) ∧
      (s.pc = .returned true → s.admitted = 0) := by
  have hs : Watched s := watched_preserved.run hrun hstart.watched
  exact ⟨fun hstuck => hstuck.notification (hs.notification hstuck.blocked hstuck.admitted),
    hs.delivery, hs.drained⟩

/-- A call with one permit out, a permit stored from before and no deadline. -/
def stale : DrainState where
  admitted := 1
  notifying := 0
  latch := ⟨true, .absent⟩
  now := 0
  deadline := none
  unseen := false
  closed := false
  pc := .head

/-- The stored permit wakes the waiter in vain, which registers again; then the last permit is
dropped. -/
theorem drain_wait_misses_nothing_stale :
    ∃ s, Run DrainStep stale s ∧ s.Blocked ∧ s.admitted = 0 ∧ ¬ s.Stuck ∧
      s.latch.notifyOne.waiter = .notified := by
  have hrun : Run DrainStep stale
      { stale with
        admitted := 0
        notifying := 1
        latch := ⟨false, .waiting⟩
        pc := .blocked none } := by
    refine .head (.enable rfl) (.head (.borrow rfl) ?_)
    refine .head (.inTime rfl fun _ h => (by cases h)) ?_
    refine .head (.busy rfl (by decide)) (.head (.unchanged rfl rfl rfl) (.head (.asleep rfl) ?_))
    refine .head (.notified true rfl rfl) (.head (.enable rfl) (.head (.borrow rfl) ?_))
    refine .head (.inTime rfl fun _ h => (by cases h)) (.head (.busy rfl (by decide)) ?_)
    refine .head (.unchanged rfl rfl rfl) (.head (.asleep rfl) (.head (.unnotified rfl rfl) ?_))
    exact .single (.release (by decide))
  have hsafe := drain_wait_misses_nothing stale _ ⟨rfl, rfl⟩ hrun
  exact ⟨_, hrun, ⟨none, rfl⟩, rfl, hsafe.1, hsafe.2.1 ⟨none, rfl⟩⟩

end EmbeddingServer.DrainWait
