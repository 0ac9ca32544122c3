import EmbeddingServer.Core.Control

/-!
# Activity ends once

The clock does not run backwards and a flag that is set stays set, so of two checks of one
control the later one cannot find it active again. Everything that is checked twice on the
way of a request rests on `ensure_active_earlier`.
-/

namespace EmbeddingServer

/-- The second moment is not before the first. -/
structure Moment.Later (before after : Moment) : Prop where
  now : before.now ≤ after.now
  cancelled : ∀ signal, before.cancelled signal = true → after.cancelled signal = true

theorem Moment.Later.refl (moment : Moment) : moment.Later moment :=
  ⟨Nat.le_refl _, fun _ h => h⟩

theorem Moment.Later.trans {first second third : Moment} (h : first.Later second)
    (hnext : second.Later third) : first.Later third :=
  ⟨Nat.le_trans h.now hnext.now, fun signal hset =>
    hnext.cancelled signal (h.cancelled signal hset)⟩

/-- A deadline that has passed has passed for good. -/
theorem deadline_passed_later {before after : Moment} (h : before.Later after)
    {deadline : Option Instant} (hpassed : deadlinePassed before deadline = true) :
    deadlinePassed after deadline = true := by
  cases deadline with
  | none => exact hpassed
  | some at_ =>
      have hbefore : at_ ≤ before.now := by simpa [deadlinePassed] using hpassed
      have hafter : at_ ≤ after.now := Nat.le_trans hbefore h.now
      simpa [deadlinePassed] using hafter

mutual
/-- A cancelled token stays cancelled. -/
theorem is_cancelled_later {before after : Moment} (h : before.Later after)
    (token : CancellationToken) (hcancelled : token.isCancelled before = true) :
    token.isCancelled after = true := by
  cases token with
  | single signal => exact h.cancelled signal hcancelled
  | any signal constituents =>
      rw [CancellationToken.isCancelled, Bool.or_eq_true] at hcancelled ⊢
      cases hcancelled with
      | inl hself => exact .inl (h.cancelled signal hself)
      | inr hmember => exact .inr (any_cancelled_later h constituents hmember)
  | composite constituents => exact all_inactive_later h constituents hcancelled

/-- A list with a cancelled token keeps one. -/
theorem any_cancelled_later {before after : Moment} (h : before.Later after)
    (tokens : List CancellationToken) (hcancelled : anyCancelled before tokens = true) :
    anyCancelled after tokens = true := by
  cases tokens with
  | nil => cases hcancelled
  | cons token rest =>
      rw [anyCancelled, Bool.or_eq_true] at hcancelled ⊢
      cases hcancelled with
      | inl hhead => exact .inl (is_cancelled_later h token hhead)
      | inr hrest => exact .inr (any_cancelled_later h rest hrest)

/-- A control that is active was active before. -/
theorem ensure_active_earlier {before after : Moment} (h : before.Later after)
    (control : ExecutionControl) (hactive : control.ensureActive after = .ok ()) :
    control.ensureActive before = .ok () := by
  cases control with
  | leaf cancellation deadline =>
      simp only [ExecutionControl.ensureActive] at hactive ⊢
      split at hactive
      · cases hactive
      · rename_i hcancelled
        split at hactive
        · cases hactive
        · rename_i hdeadline
          rw [if_neg fun hset => hcancelled (is_cancelled_later h cancellation hset),
            if_neg fun hpassed => hdeadline (deadline_passed_later h hpassed)]
  | composite constituents =>
      simp only [ExecutionControl.ensureActive] at hactive ⊢
      split at hactive
      · rename_i hsome
        rw [Bool.not_eq_true'] at hsome
        have hbefore : allInactive before constituents = false := by
          cases hall : allInactive before constituents with
          | false => rfl
          | true =>
              rw [all_inactive_later h constituents hall] at hsome
              cases hsome
        rw [if_pos (by rw [hbefore]; rfl)]
      · split at hactive
        · cases hactive
        · cases hactive

/-- Controls that are all inactive stay inactive. -/
theorem all_inactive_later {before after : Moment} (h : before.Later after)
    (controls : List ExecutionControl) (hinactive : allInactive before controls = true) :
    allInactive after controls = true := by
  cases controls with
  | nil => rfl
  | cons control rest =>
      rw [allInactive, Bool.and_eq_true] at hinactive ⊢
      refine ⟨?_, all_inactive_later h rest hinactive.2⟩
      cases hafter : control.ensureActive after with
      | error error => rfl
      | ok _ =>
          rw [ensure_active_earlier h control hafter] at hinactive
          exact hinactive.1
end

/-- The errors of an inactive control. -/
theorem ensure_active_error {moment : Moment} {control : ExecutionControl} {error : EngineFailure}
    (h : control.ensureActive moment = .error error) :
    error = .public .cancelled ∨ error = .public .deadlineExceeded := by
  cases control with
  | leaf cancellation deadline =>
      simp only [ExecutionControl.ensureActive] at h
      split at h
      · cases h
        exact .inl rfl
      · split at h
        · cases h
          exact .inr rfl
        · cases h
  | composite constituents =>
      simp only [ExecutionControl.ensureActive] at h
      split at h
      · cases h
      · split at h
        · cases h
          exact .inl rfl
        · cases h
          exact .inr rfl

end EmbeddingServer
