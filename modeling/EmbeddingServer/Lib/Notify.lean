import Mathlib.Data.Bool.Basic

/-!
# A notification with one stored permit

`notifyOne` hands a permit to the waiter that is registered, or stores it until somebody registers.
A waiter registers with `enable`, which takes a stored permit at once, and takes a delivered one
when it is polled. A waiter that leaves before it took a delivered permit may pass it on.

There is at most one waiter at a time.
-/

/-- The waiter as the notification sees it. -/
inductive Waiter where
  | absent
  | waiting
  /-- A permit was delivered and not taken yet. -/
  | notified
  /-- The permit is taken. -/
  | served
  deriving DecidableEq, Repr

/-- A notification. -/
structure Notify where
  permit : Bool
  waiter : Waiter
  deriving DecidableEq, Repr

namespace Notify

/-- The waiter has been given a permit. -/
def Reached (latch : Notify) : Prop :=
  latch.waiter = .notified ∨ latch.waiter = .served

/-- Store a permit, or deliver it to the waiter. -/
def notifyOne (latch : Notify) : Notify :=
  match latch.waiter with
  | .waiting => { latch with waiter := .notified }
  | .absent | .notified | .served => { latch with permit := true }

/-- Register a waiter. -/
def enable (latch : Notify) : Notify :=
  if latch.permit then ⟨false, .served⟩ else ⟨false, .waiting⟩

/-- Poll the waiter; it is ready if the result is `true`. -/
def poll (latch : Notify) : Bool × Notify :=
  match latch.waiter with
  | .notified | .served => (true, { latch with waiter := .served })
  | .absent | .waiting => (false, latch)

/-- The waiter leaves. A permit it did not take is passed on, if `forward` says so. -/
def leave (latch : Notify) (forward : Bool) : Notify :=
  match latch.waiter with
  | .notified => ⟨latch.permit || forward, .absent⟩
  | .absent | .waiting | .served => ⟨latch.permit, .absent⟩

/-- A waiter that registers is there. -/
theorem enable_waiter (latch : Notify) : latch.enable.waiter ≠ .absent := by
  unfold enable
  split <;> decide

/-- A waiter that is there gets every permit. -/
theorem notify_one_reached {latch : Notify} (h : latch.waiter ≠ .absent) :
    latch.notifyOne.Reached := by
  unfold notifyOne Reached
  cases hwaiter : latch.waiter with
  | absent => exact absurd hwaiter h
  | waiting => exact .inl rfl
  | notified => exact .inl rfl
  | served => exact .inr rfl

/-- No waiter leaves because of a permit. -/
theorem notify_one_waiter {latch : Notify} (h : latch.waiter ≠ .absent) :
    latch.notifyOne.waiter ≠ .absent := by
  rcases notify_one_reached h with hnotified | hserved
  · rw [hnotified]
    decide
  · rw [hserved]
    decide

/-- A waiter that was not taken care of before keeps waiting or is notified. -/
theorem notify_one_unserved {latch : Notify} (h : latch.waiter ≠ .served) :
    latch.notifyOne.waiter ≠ .served := by
  unfold notifyOne
  cases hwaiter : latch.waiter with
  | absent | notified => exact Waiter.noConfusion
  | waiting => exact Waiter.noConfusion
  | served => exact absurd hwaiter h

/-- A poll that is not ready found no permit and changed nothing. -/
theorem poll_pending {latch : Notify} (h : latch.poll.1 = false) :
    latch.poll.2 = latch ∧ ¬ latch.Reached := by
  unfold poll Reached at *
  cases hwaiter : latch.waiter with
  | absent | waiting => simp
  | notified | served =>
      rw [hwaiter] at h
      cases h

end Notify
