import EmbeddingServer.Lib.Transition
import EmbeddingServer.Runtime.Await
import EmbeddingServer.Runtime.Demultiplex

/-!
# No late publication

`embed_inner` from the construction of the control to its return: a check of the control, the
queue permit, preflight under `await_controlled`, the channel of the slot, and the response under
`await_controlled`. Whatever the worker answers, and whenever, arrives on a one-shot channel.

An outcome is chosen where `embed_inner` breaks with it, and `Pc.returned` keeps the world of that
step. `outcome_law` is what holds of every outcome. One part of what the caller is promised has a
hole (`Exposed`): a stop that is forced after the last look at `force_stop`, or before the first
one, and cancels the model before the next check of the control, is reported as a cancellation by
the caller.
-/

namespace EmbeddingServer

/-- Program points of `embed_inner`, from the construction of the control. -/
inductive EmbedPc where
  /-- The control is built: `control.ensure_active()?` is next. -/
  | admitted
  /-- The queue permit and the model name are next, then the subscription. -/
  | queueing
  /-- `pool.try_execute` is next. -/
  | submitting (seen : Nat)
  | preparing (await : Await PreflightSuccess)
  /-- `try_send` is next. -/
  | sending
  | responding (await : Await EmbeddingOutput)
  /-- An early return, with a code of the runtime's own. -/
  | refused (code : ErrorCode)
  /-- The outcome and the world in which it was chosen. -/
  | returned (result : Except EngineFailure EmbeddingOutput) (chosen : Surroundings)
  /-- The future was dropped at an await. -/
  | dropped

/-- A request in progress. `polled` is a ghost: the number of values sent on `force_stop` when
the current poll of the future began. -/
structure EmbedState where
  world : Surroundings
  pc : EmbedPc
  polled : Nat
  preflight : Channel PreflightSuccess
  response : Channel EmbeddingOutput

/-- The state at another point. -/
def EmbedState.at (s : EmbedState) (pc : EmbedPc) : EmbedState :=
  { s with pc := pc }

/-- The control was just built. -/
def EmbedState.initial (world : Surroundings) : EmbedState :=
  { world := world, pc := .admitted, polled := world.forced, preflight := .empty,
    response := .empty }

/-- `abandonment.cancel()`, the first thing it does. -/
def Surroundings.cancel (world : Surroundings) (signal : SignalId) : Surroundings :=
  { world with cancelled := Function.update world.cancelled signal true }

/-- One step of a request under the control, or of another thread. -/
inductive EmbedStep (control : ExecutionControl) (abandonment : SignalId) :
    EmbedState → EmbedState → Prop where
  | other {s : EmbedState} {world : Surroundings} (h : s.world.Later world) :
      EmbedStep control abandonment s { s with world := world }
  /-- The preflight job sends its result, or is dropped. -/
  | prepare {s : EmbedState} {result : Channel PreflightSuccess} (h : s.preflight = .empty) :
      EmbedStep control abandonment s { s with preflight := result }
  /-- The scheduler or the batch worker answers the request, or drops it. -/
  | respond {s : EmbedState} {result : Channel EmbeddingOutput} (h : s.response = .empty) :
      EmbedStep control abandonment s { s with response := result }
  | inactive {s : EmbedState} {error : EngineFailure} (hpc : s.pc = .admitted)
      (h : control.ensureActive s.world.moment = .error error) :
      EmbedStep control abandonment s (s.at (.returned (.error error) s.world))
  | admission {s : EmbedState} (hpc : s.pc = .admitted)
      (h : control.ensureActive s.world.moment = .ok ()) :
      EmbedStep control abandonment s (s.at .queueing)
  /-- No permit is left, or the model name is blank. -/
  | refuse {s : EmbedState} {code : ErrorCode} (hpc : s.pc = .queueing)
      (h : code = .queue_full ∨ code = .invalidRequest) :
      EmbedStep control abandonment s (s.at (.refused code))
  | subscribe {s : EmbedState} (hpc : s.pc = .queueing) :
      EmbedStep control abandonment s (s.at (.submitting s.world.forced))
  | poolFull {s : EmbedState} {seen : Nat} (hpc : s.pc = .submitting seen) :
      EmbedStep control abandonment s (s.at (.refused .queue_full))
  | submit {s : EmbedState} {seen : Nat} (hpc : s.pc = .submitting seen) :
      EmbedStep control abandonment s (s.at (.preparing ⟨.head, seen⟩))
  | preparing {s : EmbedState} {await next : Await PreflightSuccess} (hpc : s.pc = .preparing await)
      (h : await.Step control s.world s.preflight (.goes next)) :
      EmbedStep control abandonment s (s.at (.preparing next))
  | prepared {s : EmbedState} {await : Await PreflightSuccess} {prepared : PreflightSuccess}
      (hpc : s.pc = .preparing await)
      (h : await.Step control s.world s.preflight (.breaks (.ok prepared))) :
      EmbedStep control abandonment s (s.at .sending)
  | unprepared {s : EmbedState} {await : Await PreflightSuccess} {error : EngineFailure}
      (hpc : s.pc = .preparing await)
      (h : await.Step control s.world s.preflight (.breaks (.error error))) :
      EmbedStep control abandonment s (s.at (.returned (.error error) s.world))
  /-- The channel of the slot is full or closed. -/
  | unsent {s : EmbedState} {code : ErrorCode} (hpc : s.pc = .sending)
      (h : code = .queue_full ∨ code = .modelUnavailable) :
      EmbedStep control abandonment s (s.at (.refused code))
  | send {s : EmbedState} (hpc : s.pc = .sending) :
      EmbedStep control abandonment s (s.at (.responding (.new s.world)))
  | responding {s : EmbedState} {await next : Await EmbeddingOutput}
      (hpc : s.pc = .responding await)
      (h : await.Step control s.world s.response (.goes next)) :
      EmbedStep control abandonment s (s.at (.responding next))
  | responded {s : EmbedState} {await : Await EmbeddingOutput}
      {result : Except EngineFailure EmbeddingOutput} (hpc : s.pc = .responding await)
      (h : await.Step control s.world s.response (.breaks result)) :
      EmbedStep control abandonment s (s.at (.returned result s.world))
  /-- The executor polls the future again. -/
  | pollPreparing {s : EmbedState} {seen : Nat} (hpc : s.pc = .preparing ⟨.pending, seen⟩) :
      EmbedStep control abandonment s
        { s with pc := .preparing ⟨.select, seen⟩, polled := s.world.forced }
  | pollResponding {s : EmbedState} {seen : Nat} (hpc : s.pc = .responding ⟨.pending, seen⟩) :
      EmbedStep control abandonment s
        { s with pc := .responding ⟨.select, seen⟩, polled := s.world.forced }
  /-- The caller drops the future; `CancelOnDrop` cancels the abandonment token. -/
  | drop {s : EmbedState} {seen : Nat}
      (hpc : s.pc = .preparing ⟨.pending, seen⟩ ∨ s.pc = .responding ⟨.pending, seen⟩) :
      EmbedStep control abandonment s
        { s with pc := .dropped, world := s.world.cancel abandonment }

/-! ## What is known at a point -/

/-- What is known at a program point. -/
def EmbedPc.Sound (s : EmbedState) : EmbedPc → Prop
  | .submitting seen => seen ≤ s.world.forced
  | .preparing await => await.Sound s.polled s.world s.preflight
  | .responding await => await.Sound s.polled s.world s.response
  | .admitted | .queueing | .sending | .refused _ | .returned _ _ | .dropped => True

/-- The invariant of a request. -/
structure EmbedState.Sound (s : EmbedState) : Prop where
  polled : s.polled ≤ s.world.forced
  pc : s.pc.Sound s

variable {control : ExecutionControl} {abandonment : SignalId}

/-- What other threads do keeps what is known. -/
theorem EmbedState.Sound.later {s : EmbedState} {world : Surroundings} (hsound : s.Sound)
    (h : s.world.Later world) : ({ s with world := world } : EmbedState).Sound := by
  refine ⟨Nat.le_trans hsound.polled h.forced, ?_⟩
  have hknown := hsound.pc
  show s.pc.Sound { s with world := world }
  cases hpc : s.pc with
  | submitting seen =>
      rw [hpc] at hknown
      exact Nat.le_trans hknown h.forced
  | preparing await =>
      rw [hpc] at hknown
      exact Await.Sound.later hknown h
  | responding await =>
      rw [hpc] at hknown
      exact Await.Sound.later hknown h
  | admitted | queueing | sending | refused _ | returned _ _ | dropped => trivial

/-- An invariant of the new point is all that a step of the request needs. -/
theorem EmbedState.Sound.at {s : EmbedState} {pc : EmbedPc} (hsound : s.Sound)
    (hpc : pc.Sound (s.at pc)) : (s.at pc).Sound :=
  ⟨hsound.polled, hpc⟩

/-- Every step keeps the invariant. -/
theorem EmbedStep.sound {s s' : EmbedState} (h : EmbedStep control abandonment s s')
    (hsound : s.Sound) : s'.Sound := by
  have hknown := hsound.pc
  cases h with
  | other hlater => exact hsound.later hlater
  | prepare hempty =>
      -- The job answers into an empty channel, whatever the call is waiting for.
      refine ⟨hsound.polled, ?_⟩
      cases hpc : s.pc with
      | preparing await =>
          rw [hpc] at hknown
          have hawait : await.Sound s.polled s.world .empty := hempty ▸ hknown
          exact hawait.respond
      | responding await =>
          rw [hpc] at hknown
          exact hknown
      | submitting seen =>
          rw [hpc] at hknown
          exact hknown
      | admitted | queueing | sending | refused _ | returned _ _ | dropped => trivial
  | respond hempty =>
      refine ⟨hsound.polled, ?_⟩
      cases hpc : s.pc with
      | preparing await =>
          rw [hpc] at hknown
          exact hknown
      | responding await =>
          rw [hpc] at hknown
          have hawait : await.Sound s.polled s.world .empty := hempty ▸ hknown
          exact hawait.respond
      | submitting seen =>
          rw [hpc] at hknown
          exact hknown
      | admitted | queueing | sending | refused _ | returned _ _ | dropped => trivial
  | inactive | admission | refuse | poolFull | prepared | unprepared | unsent | responded =>
      exact hsound.at trivial
  | subscribe hpc => exact hsound.at (Nat.le_refl _)
  | submit hpc =>
      rw [hpc] at hknown
      -- The new wait has not looked at anything yet.
      refine hsound.at ⟨hsound.polled, hknown, ?_, fun h => (by cases h), fun h => (by cases h),
        fun _ h => (by cases h)⟩
      intro hpoint
      rcases hpoint with hpoint | hpoint | hpoint <;> cases hpoint
  | preparing hpc hstep =>
      rw [hpc] at hknown
      exact hsound.at (hstep.goes_sound hknown)
  | send hpc => exact hsound.at (Await.sound_new hsound.polled)
  | responding hpc hstep =>
      rw [hpc] at hknown
      exact hsound.at (hstep.goes_sound hknown)
  | pollPreparing hpc =>
      rw [hpc] at hknown
      exact ⟨Nat.le_refl _, Await.Sound.resume hknown⟩
  | pollResponding hpc =>
      rw [hpc] at hknown
      exact ⟨Nat.le_refl _, Await.Sound.resume hknown⟩
  | drop hpc => exact ⟨hsound.polled, trivial⟩

/-! ## Outcomes -/

/-- The point at which `ensure_active` is next. -/
def EmbedPc.checksActivity : EmbedPc → Bool
  | .admitted => true
  | .preparing await => await.wait.checksActivity
  | .responding await => await.wait.checksActivity
  | .queueing | .submitting _ | .sending | .refused _ | .returned _ _ | .dropped => false

/-- The hole: the control is checked next, and a stop that is already forced has made it
inactive. -/
def EmbedState.Exposed (control : ExecutionControl) (s : EmbedState) : Prop :=
  s.pc.checksActivity = true ∧ s.world.forced ≠ 0 ∧
    ∃ error, control.ensureActive s.world.moment = .error error

/-- What the caller is promised of an outcome chosen in a world, in a poll that began when
`polled` values had been sent on `force_stop`. -/
structure OutcomeLaw (control : ExecutionControl) (polled : Nat)
    (response : Channel EmbeddingOutput) (result : Except EngineFailure EmbeddingOutput)
    (chosen : Surroundings) : Prop where
  /-- An output is published by an active control, and no stop was forced before the poll. -/
  late : ∀ output, result = .ok output → control.ensureActive chosen.moment = .ok () ∧
    polled = 0 ∧ response = .sent (.ok output)
  /-- The error of an inactive control comes first, except for a forced stop. -/
  inactive : ∀ error, control.ensureActive chosen.moment = .error error →
    (chosen.forced = 0 → result = .error error) ∧
    (chosen.forced ≠ 0 → result = .error (.public .modelUnavailable))

/-- What holds of every outcome. -/
structure OutcomeFacts (control : ExecutionControl) (s : EmbedState)
    (result : Except EngineFailure EmbeddingOutput) : Prop where
  late : ∀ output, result = .ok output → control.ensureActive s.world.moment = .ok () ∧
    s.polled = 0 ∧ s.response = .sent (.ok output)
  inactive : ∀ error, control.ensureActive s.world.moment = .error error →
    result = .error error ∨
      s.world.forced ≠ 0 ∧ result = .error (.public .modelUnavailable)
  stopped : s.pc ≠ .admitted → s.polled ≠ 0 → result = .error (.public .modelUnavailable)
  exposed : ∀ error, control.ensureActive s.world.moment = .error error →
    (s.pc.checksActivity = true → result = .error error) ∧
    (s.pc.checksActivity = false → s.world.forced ≠ 0 ∧
      result = .error (.public .modelUnavailable))

/-- The step that chooses an outcome. -/
theorem EmbedStep.outcome {s s' : EmbedState} (h : EmbedStep control abandonment s s')
    (hsound : s.Sound) {result : Except EngineFailure EmbeddingOutput} {chosen : Surroundings}
    (hbefore : ∀ result chosen, s.pc ≠ .returned result chosen)
    (hpc' : s'.pc = .returned result chosen) :
    chosen = s.world ∧ s'.polled = s.polled ∧ s'.response = s.response ∧
      OutcomeFacts control s result := by
  have hknown := hsound.pc
  cases h with
  | other | prepare | respond => exact absurd hpc' (hbefore _ _)
  | inactive hpc herror =>
      cases hpc'
      -- The check at the start fails with what it has found.
      refine ⟨rfl, rfl, rfl, fun _ hok => (by cases hok), ?_, fun hne => absurd hpc hne, ?_⟩
      · intro other hother
        rw [herror] at hother
        cases hother
        exact .inl rfl
      · intro other hother
        rw [herror] at hother
        cases hother
        refine ⟨fun _ => rfl, ?_⟩
        rw [hpc]
        intro hpoint
        cases hpoint
  | unprepared hpc hstep =>
      cases hpc'
      rw [hpc] at hknown
      -- A wait that is broken off obeys the law of waiting, whatever it waited for.
      have hlaw := hstep.breaks_law hknown
      refine ⟨rfl, rfl, rfl, fun _ hok => (by cases hok), ?_, ?_, ?_⟩
      · intro error herror
        cases hlaw.inactive error herror with
        | inl hresult => exact .inl (congrArg Except.error (Except.error.inj hresult))
        | inr hstop => exact .inr ⟨hstop.1, congrArg Except.error (Except.error.inj hstop.2)⟩
      · intro _ hpolled
        exact congrArg Except.error (Except.error.inj (hlaw.stopped hpolled))
      · intro error herror
        rw [hpc]
        refine ⟨fun hpoint => ?_, fun hpoint => ?_⟩
        · exact congrArg Except.error (Except.error.inj ((hlaw.raced error herror).1 hpoint))
        · obtain ⟨hforced, hresult⟩ := (hlaw.raced error herror).2 hpoint
          exact ⟨hforced, congrArg Except.error (Except.error.inj hresult)⟩
  | responded hpc hstep =>
      cases hpc'
      rw [hpc] at hknown
      have hlaw := hstep.breaks_law hknown
      refine ⟨rfl, rfl, rfl, hlaw.late, hlaw.inactive, fun _ => hlaw.stopped, ?_⟩
      intro error herror
      rw [hpc]
      exact hlaw.raced error herror
  | admission | refuse | subscribe | poolFull | submit | preparing | prepared | unsent | send |
      responding | pollPreparing | pollResponding | drop => cases hpc'

/-- A reachable state of a request. -/
def EmbedReachable (control : ExecutionControl) (abandonment : SignalId) (s : EmbedState) : Prop :=
  ∃ world, Transition.Run (EmbedStep control abandonment) (.initial world) s

/-- Every reachable state is sound. -/
theorem EmbedReachable.sound {s : EmbedState} (h : EmbedReachable control abandonment s) :
    s.Sound := by
  obtain ⟨world, hrun⟩ := h
  have hpreserves : Transition.Preserves (EmbedStep control abandonment) EmbedState.Sound :=
    fun _ _ hsound hstep => hstep.sound hsound
  exact hpreserves.run hrun ⟨Nat.le_refl _, trivial⟩

/-- The outcome keeps its promise exactly where the step is not exposed. -/
theorem OutcomeFacts.law_iff {s : EmbedState} {result : Except EngineFailure EmbeddingOutput}
    (h : OutcomeFacts control s result) :
    OutcomeLaw control s.polled s.response result s.world ↔ ¬ s.Exposed control := by
  constructor
  · rintro hlaw ⟨hpoint, hforced, error, herror⟩
    have hresult := (h.exposed error herror).1 hpoint
    have hstopped := (hlaw.inactive error herror).2 hforced
    rw [hresult] at hstopped
    have hcode : error = .public .modelUnavailable := Except.error.inj hstopped
    cases ensure_active_error herror with
    | inl hcancelled =>
        rw [hcancelled] at hcode
        cases hcode
    | inr hexpired =>
        rw [hexpired] at hcode
        cases hcode
  · intro hsafe
    refine ⟨h.late, ?_⟩
    intro error herror
    constructor
    · intro hforced
      cases h.inactive error herror with
      | inl hresult => exact hresult
      | inr hstop => exact absurd hforced hstop.1
    · intro hforced
      cases hpoint : s.pc.checksActivity with
      | true => exact absurd ⟨hpoint, hforced, error, herror⟩ hsafe
      | false => exact ((h.exposed error herror).2 hpoint).2

/-- A dropped future has cancelled its abandonment token, for good. -/
theorem EmbedReachable.dropped {s : EmbedState} (h : EmbedReachable control abandonment s)
    (hpc : s.pc = .dropped) : s.world.cancelled abandonment = true := by
  obtain ⟨world, hrun⟩ := h
  have hpreserves : Transition.Preserves (EmbedStep control abandonment)
      fun s => s.pc = .dropped → s.world.cancelled abandonment = true := by
    intro s s' hbefore hstep hafter
    cases hstep with
    | other hlater => exact hlater.moment.cancelled abandonment (hbefore hafter)
    | prepare | respond => exact hbefore hafter
    | drop => simp [Surroundings.cancel]
    | inactive | admission | refuse | subscribe | poolFull | submit | preparing | prepared |
        unprepared | unsent | send | responding | responded | pollPreparing | pollResponding =>
        cases hafter
  exact hpreserves.run hrun (fun h => (by cases h)) hpc

/-- A run none of whose steps starts in the hole. -/
abbrev UnexposedRun (control : ExecutionControl) (abandonment : SignalId) :
    EmbedState → EmbedState → Prop :=
  Transition.Run fun s s' => ¬ s.Exposed control ∧ EmbedStep control abandonment s s'

/-- A run that avoids the hole is a run. -/
theorem UnexposedRun.run {s s' : EmbedState} (h : UnexposedRun control abandonment s s') :
    Transition.Run (EmbedStep control abandonment) s s' :=
  h.lift id fun _ _ hstep => hstep.2

/-- Every outcome of a run that avoids the hole keeps its promise. -/
theorem UnexposedRun.outcome {world : Surroundings} {s : EmbedState}
    (h : UnexposedRun control abandonment (.initial world) s)
    {result : Except EngineFailure EmbeddingOutput} {chosen : Surroundings}
    (hpc : s.pc = .returned result chosen) :
    OutcomeLaw control s.polled s.response result chosen := by
  induction h with
  | refl => cases hpc
  | @tail before after hrun hstep ih =>
      obtain ⟨hsafe, hstep⟩ := hstep
      by_cases hreturned : ∃ result chosen, before.pc = .returned result chosen
      · -- the outcome was chosen before this step
        obtain ⟨earlier, world', hbefore⟩ := hreturned
        cases hstep with
        | other => exact ih hpc
        | prepare => exact ih hpc
        | respond hempty =>
            have hlaw := ih hpc
            refine ⟨?_, hlaw.inactive⟩
            intro output hok
            have hsent := (hlaw.late output hok).2.2
            rw [hempty] at hsent
            cases hsent
        | inactive hat | admission hat | refuse hat | subscribe hat | poolFull hat | submit hat
        | preparing hat | prepared hat | unprepared hat | unsent hat | send hat
        | responding hat | responded hat | pollPreparing hat | pollResponding hat =>
            rw [hbefore] at hat
            cases hat
        | drop hat =>
            rw [hbefore] at hat
            rcases hat with hat | hat <;> cases hat
      · have hsound : before.Sound := EmbedReachable.sound ⟨world, UnexposedRun.run hrun⟩
        have hbefore : ∀ result chosen, before.pc ≠ .returned result chosen :=
          fun result chosen hat => hreturned ⟨result, chosen, hat⟩
        obtain ⟨rfl, hpolled, hresponse, hfacts⟩ := hstep.outcome hsound hbefore hpc
        rw [hpolled, hresponse]
        exact hfacts.law_iff.mpr hsafe

/-! ## The engine call -/

/-- Every member found active was found so at some check, and the slot accepting. -/
theorem activate_observed (checks : Nat → Observation) (tick : Nat) (requests : List Request) :
    ∀ request ∈ (activate checks tick requests).2.1,
      (∃ n, tick ≤ n ∧ (checks n).accepting = true) ∧
      ∃ n, tick ≤ n ∧ request.control.ensureActive (checks n).moment = .ok () := by
  induction requests generalizing tick with
  | nil => simp [activate]
  | cons member rest ih =>
      have hlater : ∀ {next}, tick ≤ next → ∀ request ∈ (activate checks next rest).2.1,
          (∃ n, tick ≤ n ∧ (checks n).accepting = true) ∧
          ∃ n, tick ≤ n ∧ request.control.ensureActive (checks n).moment = .ok () := by
        intro next hnext request hmem
        obtain ⟨⟨n, hn, haccepting⟩, m, hm, hactive⟩ := ih next request hmem
        exact ⟨⟨n, by omega, haccepting⟩, m, by omega, hactive⟩
      intro request hmem
      simp only [activate] at hmem
      split at hmem
      · exact hlater (Nat.le_add_right tick 1) request hmem
      · rename_i haccepting
        cases hactive : member.releaseQueue.control.ensureActive (checks (tick + 1)).moment with
        | error error =>
            rw [hactive] at hmem
            exact hlater (Nat.le_add_right tick 2) request hmem
        | ok _ =>
            rw [hactive] at hmem
            cases List.mem_cons.mp hmem with
            | inl hhead =>
                rw [hhead]
                refine ⟨⟨tick, Nat.le_refl _, ?_⟩, tick + 1, by omega, hactive⟩
                cases hvalue : (checks tick).accepting with
                | true => rfl
                | false => exact absurd hvalue haccepting
            | inr hrest => exact hlater (Nat.le_add_right tick 2) request hrest

/-- The worlds of a sequence in which every world is followed by a later one. -/
theorem Surroundings.later_from_first {worlds : Nat → Surroundings}
    (h : ∀ n, (worlds n).Later (worlds (n + 1))) (n : Nat) : (worlds 0).Later (worlds n) := by
  induction n with
  | zero => exact .refl _
  | succ n ih => exact ih.trans (h n)

/-- A member of the engine call was active, and its slot accepting, when the batch started. -/
theorem execute_batch_started {worlds : Nat → Surroundings}
    (h : ∀ n, (worlds n).Later (worlds (n + 1))) (engine : EngineEmbed) (modelId : String)
    (requests : List Request) :
    ∀ request ∈ (executeBatch engine modelId requests fun n => (worlds n).observation).active,
      (worlds 0).accepting = true ∧
        request.control.ensureActive (worlds 0).moment = .ok () := by
  intro request hmem
  rw [(execute_batch_activate _ engine modelId requests).2] at hmem
  obtain ⟨⟨n, _, haccepting⟩, m, _, hactive⟩ := activate_observed _ 0 requests request hmem
  exact ⟨(Surroundings.later_from_first h n).accepting haccepting,
    ensure_active_earlier (Surroundings.later_from_first h m).moment _ hactive⟩

/-- The control of the engine call is the composite of the active members' controls. -/
theorem execute_batch_control (checks : Nat → Observation) (engine : EngineEmbed)
    (modelId : String) (requests : List Request) (call : EngineCall)
    (h : (executeBatch engine modelId requests checks).call = some call) :
    call.control = .composite
      ((executeBatch engine modelId requests checks).active.map Request.control) := by
  rcases hactivate : activate checks 0 requests with ⟨inactive, active, tick⟩
  cases active with
  | nil => simp [executeBatch, hactivate] at h
  | cons first rest =>
      simp only [executeBatch, hactivate] at h ⊢
      split at h
      · simp at h
      · split at h
        · simp at h
        · obtain rfl := Option.some.inj h
          rfl

/-! ## Late publication -/

/-- Outcomes are chosen and engine calls are made as promised, up to the hole, for every control,
engine, timing and interleaving. (1) An outcome keeps its whole promise exactly when the step that
chooses it is not exposed. (2) In every run without an exposed step all outcomes keep it. (3) In
every run at all: an output comes from an active control in a poll before which no stop was
forced, the error of an inactive control comes before whatever the engine did, and a stop forced
before the poll is reported as such by both waits; a dropped future has cancelled its
abandonment. (4) The members of an engine call were active, and their slot accepting, when their
batch started, and the call is about them only. -/
theorem no_late_publication (control : ExecutionControl) (abandonment : SignalId) :
    (∀ s s' result chosen, EmbedReachable control abandonment s →
      EmbedStep control abandonment s s' → (∀ result chosen, s.pc ≠ .returned result chosen) →
      s'.pc = .returned result chosen →
      (OutcomeLaw control s'.polled s'.response result chosen ↔ ¬ s.Exposed control)) ∧
    (∀ world s result chosen, UnexposedRun control abandonment (.initial world) s →
      s.pc = .returned result chosen → OutcomeLaw control s.polled s.response result chosen) ∧
    ((∀ s s' result chosen, EmbedReachable control abandonment s →
      EmbedStep control abandonment s s' → (∀ result chosen, s.pc ≠ .returned result chosen) →
      s'.pc = .returned result chosen → chosen = s.world ∧ OutcomeFacts control s result) ∧
      ∀ s, EmbedReachable control abandonment s → s.pc = .dropped →
        s.world.cancelled abandonment = true) ∧
    (∀ (engine : EngineEmbed) (modelId : String) (requests : List Request)
      (worlds : Nat → Surroundings), (∀ n, (worlds n).Later (worlds (n + 1))) →
      let run := executeBatch engine modelId requests fun n => (worlds n).observation
      (∀ request ∈ run.active, (worlds 0).accepting = true ∧
        request.control.ensureActive (worlds 0).moment = .ok ()) ∧
      ∀ call, run.call = some call →
        call.batch.inputs = run.active.flatMap Request.inputs ∧
        call.control = .composite (run.active.map Request.control)) := by
  refine ⟨?_, ?_, ⟨?_, ?_⟩, ?_⟩
  · intro s s' result chosen hreach hstep hbefore hpc
    obtain ⟨rfl, hpolled, hresponse, hfacts⟩ := hstep.outcome hreach.sound hbefore hpc
    rw [hpolled, hresponse]
    exact hfacts.law_iff
  · intro world s result chosen hrun hpc
    exact hrun.outcome hpc
  · intro s s' result chosen hreach hstep hbefore hpc
    obtain ⟨hchosen, _, _, hfacts⟩ := hstep.outcome hreach.sound hbefore hpc
    exact ⟨hchosen, hfacts⟩
  · intro s hreach hpc
    exact hreach.dropped hpc
  · intro engine modelId requests worlds hlater run
    refine ⟨execute_batch_started hlater engine modelId requests, ?_⟩
    intro call hcall
    obtain ⟨_, _, _, hinputs, _⟩ := execute_batch_call _ engine modelId requests call hcall
    exact ⟨hinputs, execute_batch_control _ engine modelId requests call hcall⟩

/-- The control of a request whose caller, abandonment and model have the signals 0, 1 and 2. -/
def racedControl : ExecutionControl :=
  .leaf (.any 3 [.single 0, .single 1, .single 2]) (some 100)

/-- Nothing has happened yet. -/
def calmSurroundings : Surroundings :=
  { now := 0, cancelled := fun _ => false, accepting := true, forced := 0 }

/-- `finish_shutdown` has forced the stop, refused further work and cancelled the model. -/
def forcedSurroundings : Surroundings :=
  { now := 0, cancelled := fun signal => signal == 2, accepting := false, forced := 1 }

/-- A failed preflight is received in the poll in which the shutdown forces the stop and cancels
the model: the caller is told that it has cancelled the request itself. -/
theorem forced_stop_reported_cancelled :
    ∃ s, EmbedReachable racedControl 1 s ∧
      s.pc = .returned (.error (.public .cancelled)) forcedSurroundings ∧
      racedControl.ensureActive forcedSurroundings.moment = .error (.public .cancelled) ∧
      forcedSurroundings.forced ≠ 0 ∧
      ¬ OutcomeLaw racedControl s.polled s.response (.error (.public .cancelled))
        forcedSurroundings := by
  have hcalm : racedControl.ensureActive calmSurroundings.moment = .ok () := by rfl
  have hforced : racedControl.ensureActive forcedSurroundings.moment =
      .error (.public .cancelled) := by
    rfl
  have hlater : calmSurroundings.Later forcedSurroundings :=
    ⟨⟨Nat.le_refl _, fun _ h => (by cases h)⟩, fun _ => rfl, Nat.zero_le _⟩
  -- the preflight job has failed, and its result is in the channel
  let failed : EmbedState :=
    { world := calmSurroundings
      pc := .preparing ⟨.receive, 0⟩
      polled := 0
      preflight := .sent (.error (.public .inferenceFailed))
      response := .empty }
  refine ⟨{ world := forcedSurroundings
            pc := .returned (.error (.public .cancelled)) forcedSurroundings
            polled := 0
            preflight := .sent (.error (.public .inferenceFailed))
            response := .empty },
    ⟨calmSurroundings, ?_⟩, rfl, hforced, Nat.one_ne_zero, ?_⟩
  · refine .head (.admission rfl hcalm) ?_
    refine .head (.subscribe rfl) ?_
    refine .head (.submit rfl) ?_
    refine .head (.preparing rfl (.head rfl)) ?_
    refine .head (.preparing rfl (.headActive hcalm)) ?_
    refine .head (.preparing rfl (.unchanged rfl)) ?_
    refine .head (.preparing rfl (.uncancelled rfl)) ?_
    refine .head (.preparing rfl .asleep) ?_
    refine .head (b := failed) (.prepare rfl) ?_
    refine .head (.preparing rfl (.received rfl)) ?_
    refine .head (.other hlater) ?_
    exact .single (.unprepared rfl (.receivedInactive hforced))
  · intro hlaw
    have hstopped := (hlaw.inactive _ hforced).2 Nat.one_ne_zero
    cases hstopped

end EmbeddingServer
