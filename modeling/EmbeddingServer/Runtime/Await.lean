import EmbeddingServer.Core.Activity
import EmbeddingServer.Runtime.Preflight

/-!
# Waiting under a control

`await_controlled` waits for one of four events with a biased `select!`: the forced stop, the
cancellation of the control, the deadline, and the response. Each of its checks is one step, in
surroundings that other threads change between any two steps; what they cannot do is take something
back (`Surroundings.Later`). A poll runs until the future returns or is `pending`.

The sending half of `force_stop` lives in the runtime that the caller borrows, so it is not
dropped while anybody waits. Only `true` is ever sent, so the watch is the number of values sent;
a receiver knows the number it has seen. When the timer fires is free: it follows the clock of the
executor, not the one that `ensure_active` reads.
-/

namespace EmbeddingServer

/-- What the threads of the runtime share, as far as one request looks at it. -/
structure Surroundings where
  now : Instant
  cancelled : SignalId → Bool
  /-- `accepting` of the slot. -/
  accepting : Bool
  /-- The number of values sent on `force_stop`. -/
  forced : Nat

namespace Surroundings

/-- What a check of a control observes. -/
def moment (world : Surroundings) : Moment :=
  ⟨world.now, world.cancelled⟩

/-- What a check of the batch worker observes. -/
def observation (world : Surroundings) : Observation :=
  ⟨world.accepting, world.moment⟩

/-- What other threads may do: time passes, tokens are cancelled, the slot refuses, the stop is
forced. -/
structure Later (before after : Surroundings) : Prop where
  moment : before.moment.Later after.moment
  accepting : after.accepting = true → before.accepting = true
  forced : before.forced ≤ after.forced

theorem Later.refl (world : Surroundings) : world.Later world :=
  ⟨.refl _, id, Nat.le_refl _⟩

theorem Later.trans {first second third : Surroundings} (h : first.Later second)
    (hnext : second.Later third) : first.Later third :=
  ⟨h.moment.trans hnext.moment, fun haccepting => h.accepting (hnext.accepting haccepting),
    Nat.le_trans h.forced hnext.forced⟩

end Surroundings

/-- The receiving half of a one-shot channel. -/
inductive Channel (α : Type) where
  | empty
  | sent (response : Except EngineFailure α)
  /-- The sending half was dropped. -/
  | closed

/-- What `receive` yields once the channel is ready. -/
def Channel.received {α : Type} : Channel α → Option (Option (Except EngineFailure α))
  | .empty => none
  | .sent response => some (some response)
  | .closed => some none

/-- `response.unwrap_or_else`: a request that was dropped without a response. -/
def unwrapResponse {α : Type} (response : Option (Except EngineFailure α)) :
    Except EngineFailure α :=
  response.getD (.error (.public .modelUnavailable))

/-- Program points of `await_controlled`. -/
inductive Wait (α : Type) where
  /-- The head of the loop: `*force_stop.borrow()` is next. -/
  | head
  /-- The head of the loop: `ensure_active` is next. -/
  | headActive
  /-- The `select!` is polled: `force_stop.changed()` is next. -/
  | select
  /-- `changed` was ready: `*force_stop.borrow()` is next. -/
  | changed
  /-- `cancellation_event` is next. -/
  | cancellation
  /-- The event was ready: `*force_stop.borrow()` is next. -/
  | cancelled
  /-- The event was ready and no stop forced: `ensure_active` is next. -/
  | cancelledActive
  /-- `sleep` is next. -/
  | sleep
  /-- The timer fired: `ensure_active` is next. -/
  | expired
  /-- `receive` is next. -/
  | receive
  /-- A response was received: `ensure_active` is next. -/
  | received (response : Option (Except EngineFailure α))
  /-- The poll has returned `Pending`. -/
  | pending

/-- A running `await_controlled`: where it is, and the number of values its receiver of
`force_stop` has seen. -/
structure Await (α : Type) where
  wait : Wait α
  seen : Nat

/-- `await_controlled` is called with a fresh subscription. -/
def Await.new {α : Type} (world : Surroundings) : Await α :=
  ⟨.head, world.forced⟩

/-- A step goes on in the function or breaks out of its loop with a result. -/
inductive Progress (α : Type) where
  | goes (next : Await α)
  | breaks (result : Except EngineFailure α)

/-- `control.ensure_active().and_then(|()| Err(code))`. -/
def failActive {α : Type} (control : ExecutionControl) (moment : Moment) (code : ErrorCode) :
    Except EngineFailure α :=
  match control.ensureActive moment with
  | .error error => .error error
  | .ok _ => .error (.public code)

/-- One step of `await_controlled`. -/
inductive Await.Step {α : Type} (control : ExecutionControl) (world : Surroundings)
    (channel : Channel α) : Await α → Progress α → Prop where
  | headStopped {seen : Nat} (h : world.forced ≠ 0) :
      Step control world channel ⟨.head, seen⟩ (.breaks (.error (.public .modelUnavailable)))
  | head {seen : Nat} (h : world.forced = 0) :
      Step control world channel ⟨.head, seen⟩ (.goes ⟨.headActive, seen⟩)
  | headInactive {seen : Nat} {error : EngineFailure}
      (h : control.ensureActive world.moment = .error error) :
      Step control world channel ⟨.headActive, seen⟩ (.breaks (.error error))
  | headActive {seen : Nat} (h : control.ensureActive world.moment = .ok ()) :
      Step control world channel ⟨.headActive, seen⟩ (.goes ⟨.select, seen⟩)
  /-- `select!` yields when the budget of the task is used up. -/
  | depleted {seen : Nat} :
      Step control world channel ⟨.select, seen⟩ (.goes ⟨.pending, seen⟩)
  | changed {seen : Nat} (h : world.forced ≠ seen) :
      Step control world channel ⟨.select, seen⟩ (.goes ⟨.changed, world.forced⟩)
  | unchanged {seen : Nat} (h : world.forced = seen) :
      Step control world channel ⟨.select, seen⟩ (.goes ⟨.cancellation, seen⟩)
  | changedStopped {seen : Nat} (h : world.forced ≠ 0) :
      Step control world channel ⟨.changed, seen⟩ (.breaks (.error (.public .modelUnavailable)))
  | changedAgain {seen : Nat} (h : world.forced = 0) :
      Step control world channel ⟨.changed, seen⟩ (.goes ⟨.head, seen⟩)
  | cancelled {seen : Nat} (h : control.cancellation.isCancelled world.moment = true) :
      Step control world channel ⟨.cancellation, seen⟩ (.goes ⟨.cancelled, seen⟩)
  | uncancelled {seen : Nat} (h : control.cancellation.isCancelled world.moment = false) :
      Step control world channel ⟨.cancellation, seen⟩ (.goes ⟨.sleep, seen⟩)
  | cancelledStopped {seen : Nat} (h : world.forced ≠ 0) :
      Step control world channel ⟨.cancelled, seen⟩
        (.breaks (.error (.public .modelUnavailable)))
  | cancelledUnstopped {seen : Nat} (h : world.forced = 0) :
      Step control world channel ⟨.cancelled, seen⟩ (.goes ⟨.cancelledActive, seen⟩)
  | cancelledBreak {seen : Nat} :
      Step control world channel ⟨.cancelledActive, seen⟩
        (.breaks (failActive control world.moment .cancelled))
  | fired {seen : Nat} :
      Step control world channel ⟨.sleep, seen⟩ (.goes ⟨.expired, seen⟩)
  | asleep {seen : Nat} :
      Step control world channel ⟨.sleep, seen⟩ (.goes ⟨.receive, seen⟩)
  | expiredBreak {seen : Nat} :
      Step control world channel ⟨.expired, seen⟩
        (.breaks (failActive control world.moment .deadlineExceeded))
  | waiting {seen : Nat} (h : channel.received = none) :
      Step control world channel ⟨.receive, seen⟩ (.goes ⟨.pending, seen⟩)
  | received {seen : Nat} {response : Option (Except EngineFailure α)}
      (h : channel.received = some response) :
      Step control world channel ⟨.receive, seen⟩ (.goes ⟨.received response, seen⟩)
  | receivedInactive {seen : Nat} {response : Option (Except EngineFailure α)}
      {error : EngineFailure} (h : control.ensureActive world.moment = .error error) :
      Step control world channel ⟨.received response, seen⟩ (.breaks (.error error))
  | receivedBreak {seen : Nat} {response : Option (Except EngineFailure α)}
      (h : control.ensureActive world.moment = .ok ()) :
      Step control world channel ⟨.received response, seen⟩ (.breaks (unwrapResponse response))

/-- The points at which `ensure_active` is next. -/
def Wait.checksActivity {α : Type} : Wait α → Bool
  | .headActive | .cancelledActive | .expired | .received _ => true
  | .head | .select | .changed | .cancellation | .cancelled | .sleep | .receive | .pending => false

/-! ## What is known at a point -/

/-- The points between the look at the forced stop and the break: no stop was forced before the
poll began, as far as this poll has looked. -/
def Wait.looked {α : Type} : Wait α → Bool
  | .head | .select | .changed | .pending => false
  | .headActive | .cancellation | .cancelled | .cancelledActive | .sleep | .expired | .receive
  | .received _ => true

/-- The invariant of a running `await_controlled`, in a poll that began when `polled` values had
been sent on `force_stop`. -/
structure Await.Sound {α : Type} (polled : Nat) (world : Surroundings) (channel : Channel α)
    (await : Await α) : Prop where
  begun : polled ≤ world.forced
  seen : await.seen ≤ world.forced
  subscribed : await.wait.looked = true ∨ await.wait = .select ∨ await.wait = .pending →
    await.seen = 0
  looked : await.wait.looked = true → polled = 0
  changed : await.wait = .changed → world.forced ≠ 0
  response : ∀ response, await.wait = .received response → channel.received = some response

/-- What a break establishes. The fourth fact is about the class of a forced stop: it is only
missed where the activity of the control is checked. -/
structure BreakLaw {α : Type} (control : ExecutionControl) (polled : Nat) (world : Surroundings)
    (channel : Channel α) (wait : Wait α) (result : Except EngineFailure α) : Prop where
  late : ∀ value, result = .ok value → control.ensureActive world.moment = .ok () ∧
    polled = 0 ∧ channel = .sent (.ok value)
  inactive : ∀ error, control.ensureActive world.moment = .error error →
    result = .error error ∨ world.forced ≠ 0 ∧ result = .error (.public .modelUnavailable)
  stopped : polled ≠ 0 → result = .error (.public .modelUnavailable)
  raced : ∀ error, control.ensureActive world.moment = .error error →
    (wait.checksActivity = true → result = .error error) ∧
    (wait.checksActivity = false → world.forced ≠ 0 ∧
      result = .error (.public .modelUnavailable))

/-- A call starts soundly. -/
theorem Await.sound_new {α : Type} {polled : Nat} {world : Surroundings} {channel : Channel α}
    (h : polled ≤ world.forced) : (Await.new world : Await α).Sound polled world channel := by
  constructor
  · exact h
  · exact Nat.le_refl _
  · intro hpoint
    rcases hpoint with hpoint | hpoint | hpoint <;> cases hpoint
  · intro hlooked
    cases hlooked
  · intro hchanged
    cases hchanged
  · intro response hreceived
    cases hreceived

/-- A received response was sent. -/
theorem Channel.received_ok {α : Type} {channel : Channel α}
    {response : Option (Except EngineFailure α)} {value : α}
    (h : channel.received = some response) (hvalue : unwrapResponse response = .ok value) :
    channel = .sent (.ok value) := by
  cases channel with
  | empty => cases h
  | closed =>
      cases h
      cases hvalue
  | sent result =>
      cases h
      exact congrArg Channel.sent hvalue

/-- What a break with an error at a check of the activity establishes. -/
theorem fail_active_error {α : Type} {control : ExecutionControl} {moment : Moment}
    {code : ErrorCode} :
    (∀ value : α, failActive control moment code ≠ .ok value) ∧
    ∀ error, control.ensureActive moment = .error error →
      (failActive control moment code : Except EngineFailure α) = .error error := by
  unfold failActive
  cases control.ensureActive moment with
  | error error =>
      constructor
      · intro value h
        cases h
      · intro other h
        cases h
        rfl
  | ok _ =>
      constructor
      · intro value h
        cases h
      · intro other h
        cases h

variable {α : Type} {control : ExecutionControl} {polled : Nat} {world : Surroundings}
  {channel : Channel α}

/-- A break with the class of a forced stop. -/
theorem BreakLaw.of_stopped {wait : Wait α} (hcheck : wait.checksActivity = false)
    (hforced : world.forced ≠ 0) :
    BreakLaw control polled world channel wait (.error (.public .modelUnavailable)) where
  late value h := by cases h
  inactive error _ := .inr ⟨hforced, rfl⟩
  stopped _ := rfl
  raced error _ := by
    refine ⟨?_, fun _ => ⟨hforced, rfl⟩⟩
    intro h
    rw [hcheck] at h
    cases h

/-- A break after a check of the activity, in a poll that has looked at the forced stop. -/
theorem BreakLaw.of_checked {wait : Wait α} {result : Except EngineFailure α}
    (hcheck : wait.checksActivity = true) (hpolled : polled = 0)
    (herror : ∀ error, control.ensureActive world.moment = .error error → result = .error error)
    (hok : ∀ value, result = .ok value →
      control.ensureActive world.moment = .ok () ∧ channel = .sent (.ok value)) :
    BreakLaw control polled world channel wait result where
  late value h := ⟨(hok value h).1, hpolled, (hok value h).2⟩
  inactive error h := .inl (herror error h)
  stopped h := absurd hpolled h
  raced error h := by
    refine ⟨fun _ => herror error h, ?_⟩
    intro hpoint
    rw [hcheck] at hpoint
    cases hpoint

/-- A step that goes on keeps the invariant. -/
theorem Await.Step.goes_sound {await next : Await α}
    (h : Await.Step control world channel await (.goes next))
    (hsound : await.Sound polled world channel) : next.Sound polled world channel := by
  obtain ⟨hpolled, hseen, hsubscribed, hlooked, hchanged, hresponse⟩ := hsound
  cases h with
  | head hforced =>
      have hzero : polled = 0 := Nat.le_zero.mp (hforced ▸ hpolled)
      exact ⟨hpolled, hseen, fun _ => Nat.le_zero.mp (hforced ▸ hseen), fun _ => hzero,
        fun hpoint => (by cases hpoint), fun _ hpoint => (by cases hpoint)⟩
  | headActive hactive =>
      exact ⟨hpolled, hseen, fun _ => hsubscribed (.inl rfl), fun hpoint => (by cases hpoint),
        fun hpoint => (by cases hpoint), fun _ hpoint => (by cases hpoint)⟩
  | depleted =>
      exact ⟨hpolled, hseen, fun _ => hsubscribed (.inr (.inl rfl)),
        fun hpoint => (by cases hpoint), fun hpoint => (by cases hpoint),
        fun _ hpoint => (by cases hpoint)⟩
  | changed hforced =>
      have hzero := hsubscribed (.inr (.inl rfl))
      refine ⟨hpolled, Nat.le_refl _, ?_, fun hpoint => (by cases hpoint), ?_,
        fun _ hpoint => (by cases hpoint)⟩
      · intro hpoint
        rcases hpoint with hpoint | hpoint | hpoint <;> cases hpoint
      · intro _ hnone
        exact hforced (hnone.trans hzero.symm)
  | unchanged hforced =>
      have hzero := hsubscribed (.inr (.inl rfl))
      have hnone : polled = 0 := Nat.le_zero.mp (hzero ▸ hforced ▸ hpolled)
      exact ⟨hpolled, hseen, fun _ => hzero, fun _ => hnone, fun hpoint => (by cases hpoint),
        fun _ hpoint => (by cases hpoint)⟩
  | changedAgain hforced => exact absurd hforced (hchanged rfl)
  | cancelled | uncancelled | cancelledUnstopped | fired | asleep =>
      exact ⟨hpolled, hseen, fun _ => hsubscribed (.inl rfl), fun _ => hlooked rfl,
        fun hpoint => (by cases hpoint), fun _ hpoint => (by cases hpoint)⟩
  | waiting _ =>
      exact ⟨hpolled, hseen, fun _ => hsubscribed (.inl rfl), fun hpoint => (by cases hpoint),
        fun hpoint => (by cases hpoint), fun _ hpoint => (by cases hpoint)⟩
  | received hready =>
      refine ⟨hpolled, hseen, fun _ => hsubscribed (.inl rfl), fun _ => hlooked rfl,
        fun hpoint => (by cases hpoint), ?_⟩
      intro response hpoint
      cases hpoint
      exact hready

/-- What is known when the loop breaks. -/
theorem Await.Step.breaks_law {await : Await α} {result : Except EngineFailure α}
    (h : Await.Step control world channel await (.breaks result))
    (hsound : await.Sound polled world channel) :
    BreakLaw control polled world channel await.wait result := by
  cases h with
  | headStopped hforced | changedStopped hforced | cancelledStopped hforced =>
      exact .of_stopped rfl hforced
  | headInactive herror =>
      refine .of_checked rfl (hsound.looked rfl) ?_ (fun _ hok => (by cases hok))
      intro other hother
      rw [herror] at hother
      cases hother
      rfl
  | cancelledBreak | expiredBreak =>
      refine .of_checked rfl (hsound.looked rfl) fail_active_error.2 ?_
      intro value hok
      exact absurd hok (fail_active_error.1 value)
  | receivedInactive herror =>
      refine .of_checked rfl (hsound.looked rfl) ?_ (fun _ hok => (by cases hok))
      intro other hother
      rw [herror] at hother
      cases hother
      rfl
  | receivedBreak hactive =>
      refine .of_checked rfl (hsound.looked rfl) ?_ ?_
      · intro error herror
        rw [hactive] at herror
        cases herror
      · intro value hok
        exact ⟨hactive, Channel.received_ok (hsound.response _ rfl) hok⟩

/-- Other threads do not disturb a running call. -/
theorem Await.Sound.later {await : Await α} {after : Surroundings}
    (hsound : await.Sound polled world channel) (h : world.Later after) :
    await.Sound polled after channel where
  begun := Nat.le_trans hsound.begun h.forced
  seen := Nat.le_trans hsound.seen h.forced
  subscribed := hsound.subscribed
  looked := hsound.looked
  changed hpoint := by
    have hbefore := hsound.changed hpoint
    have hforced := h.forced
    omega
  response := hsound.response

/-- A response that arrives does not disturb a running call. -/
theorem Await.Sound.respond {await : Await α} {sent : Channel α}
    (hsound : await.Sound polled world .empty) : await.Sound polled world sent where
  begun := hsound.begun
  seen := hsound.seen
  subscribed := hsound.subscribed
  looked := hsound.looked
  changed := hsound.changed
  response response hpoint := by
    have hready := hsound.response response hpoint
    cases hready

/-- A new poll of a pending call. -/
theorem Await.Sound.resume {seen : Nat}
    (hsound : (⟨.pending, seen⟩ : Await α).Sound polled world channel) :
    (⟨.select, seen⟩ : Await α).Sound world.forced world channel where
  begun := Nat.le_refl _
  seen := hsound.seen
  subscribed _ := hsound.subscribed (.inr (.inr rfl))
  looked h := by cases h
  changed h := by cases h
  response _ h := by cases h

end EmbeddingServer
