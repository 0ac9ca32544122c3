import EmbeddingServer.Server.Application
import EmbeddingServer.Server.EmbedRequests

/-!
# Deadlines of gRPC calls

On its way to the engine a gRPC call passes the adapter, the application and the runtime. The
adapter reads the timeout of the caller and the options, the application resolves the model, and the
runtime admits the call, checks its inputs and leases a slot; each of them caps the timeout. Only
then does the call have a control with a deadline. `grpc_deadlines` says which calls come so far
(`Entered`), as what the others fail (`Refused`), and what the three caps make of the timeout: a
caller can only shorten the timeout of the server, and all of them mean the same moment.

Durations are in nanoseconds, and the clock is read at one moment after the other. Others may
change the application and the runtime while a call is on its way, so what it finds at each of
its looks is given separately (`CallState`). Locks are never poisoned.
-/

namespace EmbeddingServer

/-- `effective_timeout` of the adapter. -/
def effectiveTimeout (caller : Option Nat) (server : Nat) : Nat :=
  min (caller.getD server) server

/-- The timeout and the deadline in `EmbeddingApplication::embed`; the clock counts as far as
`lastInstant`. -/
def applicationDeadline (lastInstant requestTimeout : Nat) (caller : Option Nat) (now : Instant) :
    Except ApplicationError Instant :=
  let timeout := min (caller.getD requestTimeout) requestTimeout
  if timeout = 0 then .error catalogRequestError
  else if lastInstant < now + timeout then .error infrastructureError
  else .ok (now + timeout)

/-- `server_deadline` in `embed_inner`. -/
def serverDeadline (lastInstant requestTimeout : Nat) (now : Instant) :
    Except EngineFailure Instant :=
  if lastInstant < now + requestTimeout then .error (.public .internal)
  else .ok (now + requestTimeout)

/-- What a call finds each time it looks. -/
structure CallState where
  /-- When `shutting_down` is read. -/
  application : EmbeddingApplication
  /-- When `preload_pending` is read. -/
  preload : EmbeddingApplication
  /-- In `admit_work`. -/
  admission : Inner
  /-- When the slot is looked up. -/
  lookUp : Inner
  /-- When `accepting` of the slot is read. -/
  acceptance : Inner
  /-- In `lease`. -/
  lease : Inner

/-- What `EmbeddingApplication::embed` checks of the model. -/
def CallState.resolveServed (state : CallState) (catalog : ModelCatalog) (model : String) :
    Except ApplicationError Manifest :=
  match catalog.resolve model with
  | none => .error catalogRequestError
  | some manifest =>
      if state.application.shuttingDown || state.preload.preloadPending manifest.canonicalId then
        .error (.new .modelUnavailable .modelUnavailable)
      else .ok manifest

/-- `ApplicationRuntime::lease`: the slot that counts it. -/
def Inner.leaseSlot (inner : Inner) (id : String) : Except LifecycleError ModelKey :=
  match inner.registry.models id with
  | none => .error .notFound
  | some key => if !inner.accepting key then .error .notFound else .ok key

/-- `embed_inner` from the look-up of the slot to the lease. -/
def CallState.leaseModel (state : CallState) (id : String) : Except EngineFailure Unit :=
  match state.lookUp.registry.models id with
  | none => .error (.public .modelUnavailable)
  | some key =>
      if !state.acceptance.accepting key then .error (.public .modelUnavailable)
      else
        -- The second look-up: this slot may be another one.
        match state.lease.leaseSlot id with
        | .error _ => .error (.public .modelUnavailable)
        | .ok _ => .ok ()

/-- `embed_inner` up to the control of the request: its deadline. -/
def controlDeadline (lastInstant : Nat) (policy : BatchPolicy) (state : CallState) (id : String)
    (inputs : List String) (deadline : Option Instant) (now : Instant) :
    Except EngineFailure Instant := do
  let server ← serverDeadline lastInstant policy.requestTimeout now
  if state.admission.admitWork.isNone then throw (.public .modelUnavailable)
  admitInputs policy inputs
  state.leaseModel id
  return deadline.elim server fun caller => min caller server

/-- `DEFAULT_BATCH_WAIT`. -/
def defaultBatchWait : Nat := 4000000

/-- The deadlines of a call. -/
structure CallDeadlines where
  /-- The timer in the `select!` of the adapter. -/
  timer : Instant
  /-- The deadline of the control of the request. -/
  control : Instant
  deriving DecidableEq, Repr

/-- `From<EngineFailure>`. -/
def ApplicationError.ofFailure (failure : EngineFailure) : ApplicationError :=
  let kind :=
    match failure.publicError.code with
    | .invalidRequest => .invalidRequest
    | .modelUnavailable => .modelUnavailable
    | .queue_full => .overloaded
    | .cancelled => .cancelled
    | .deadlineExceeded => .deadlineExceeded
    | _ => .internal
  { kind := kind, publicError := failure.publicError }

/-- `EmbeddingApplication::embed` up to the control of the request: its deadline. The application
and the runtime read the clock at two moments. -/
def embedDeadline (lastInstant : Nat) (limits : Limits) (catalog : ModelCatalog)
    (state : CallState) (command : EmbedCommand) (caller : Option Nat) (now later : Instant) :
    Except ApplicationError Instant := do
  let manifest ← state.resolveServed catalog command.model
  let deadline ← applicationDeadline lastInstant limits.requestTimeout caller now
  (controlDeadline lastInstant (.fromLimits limits defaultBatchWait) state manifest.canonicalId
    command.input (some deadline) later).mapError ApplicationError.ofFailure

/-- `GrpcEmbeddingService::embed` up to the control of the request: the timer is made at the first
moment, the application and the runtime read the clock at the second and the third. -/
def grpcDeadlines (lastInstant : Nat) (limits : Limits) (catalog : ModelCatalog)
    (state : CallState) (metadata : HeaderMap) (request : EmbedRequest)
    (first second third : Instant) : Except PublicError CallDeadlines := do
  let caller ← parseGrpcTimeout metadata
  if caller = some 0 then throw (PublicError.forCode .deadlineExceeded)
  let command ← grpcCommand request
  let timer := first + effectiveTimeout caller limits.requestTimeout
  let control ← (embedDeadline lastInstant limits catalog state command caller second
    third).mapError ApplicationError.publicError
  return { timer := timer, control := control }

/-! ## Which calls have a deadline -/

/-- The call finds a slot of the model that accepts, each time it looks for one. -/
structure CallState.Serves (state : CallState) (id : String) : Prop where
  running : state.application.shuttingDown = false
  loaded : state.preload.preloadPending id = false
  admitted : state.admission.admitWork.isSome = true
  found : ∃ key, state.lookUp.registry.models id = some key ∧
    state.acceptance.accepting key = true
  leased : ∃ key, state.lease.registry.models id = some key ∧ state.lease.accepting key = true

/-- The call passes everything that stands before its deadline. -/
structure Entered (limits : Limits) (catalog : ModelCatalog) (state : CallState)
    (metadata : HeaderMap) (request : EmbedRequest) (caller : Option Nat) : Prop where
  header : parseGrpcTimeout metadata = .ok caller
  positive : caller ≠ some 0
  options : ∃ command, grpcCommand request = .ok command
  served : ∃ manifest, catalog.resolve request.model = some manifest ∧
    state.Serves manifest.canonicalId
  inputs : limits.Admits request.input

/-- Why a call fails before it has a deadline, and as what. -/
inductive Refused (limits : Limits) (catalog : ModelCatalog) (state : CallState)
    (metadata : HeaderMap) (request : EmbedRequest) : PublicError → Prop where
  | header (h : ∀ caller, parseGrpcTimeout metadata ≠ .ok caller) :
      Refused limits catalog state metadata request (PublicError.forCode .invalidRequest)
  | zero (h : parseGrpcTimeout metadata = .ok (some 0)) :
      Refused limits catalog state metadata request (PublicError.forCode .deadlineExceeded)
  | options (h : ∀ command, grpcCommand request ≠ .ok command) :
      Refused limits catalog state metadata request (PublicError.forCode .invalidRequest)
  | unknown (h : catalog.resolve request.model = none) :
      Refused limits catalog state metadata request (PublicError.forCode .invalidRequest)
  | inputs (h : ¬ limits.Admits request.input) :
      Refused limits catalog state metadata request (PublicError.forCode .invalidRequest)
  | unavailable {manifest : Manifest} (hmodel : catalog.resolve request.model = some manifest)
      (h : ¬ state.Serves manifest.canonicalId) :
      Refused limits catalog state metadata request (PublicError.forCode .modelUnavailable)

/-! ## What the three caps make of the timeout -/

/-- Accepted limits leave a request some time. -/
theorem request_timeout_pos {limits : Limits} (h : validateBounds limits = .ok ()) :
    0 < limits.requestTimeout := by
  have hrow := (validate_bounds_ok h).1
    (.requestTimeout, limits.requestTimeout, 10000000, 600000000000) (by simp [Limits.bounds])
  have hbound : 10000000 ≤ limits.requestTimeout := hrow
  omega

/-- The timeout a caller gets. -/
theorem effective_timeout_pos {caller : Option Nat} {server : Nat} (hserver : 0 < server)
    (hcaller : caller ≠ some 0) : 0 < effectiveTimeout caller server := by
  unfold effectiveTimeout
  cases caller with
  | none =>
      show 0 < min server server
      omega
  | some timeout =>
      have hne : timeout ≠ 0 := fun hzero => hcaller (congrArg some hzero)
      show 0 < min timeout server
      omega

section

variable {lastInstant requestTimeout timeout : Nat} {now later : Instant}

/-- The application counts the timeout of the adapter from its own start. -/
theorem application_deadline_eq {caller : Option Nat}
    (hpos : 0 < effectiveTimeout caller requestTimeout)
    (hclock : now + requestTimeout ≤ lastInstant) :
    applicationDeadline lastInstant requestTimeout caller now =
      .ok (now + effectiveTimeout caller requestTimeout) := by
  have hcap : effectiveTimeout caller requestTimeout ≤ requestTimeout := Nat.min_le_right _ _
  have hend : ¬ lastInstant < now + effectiveTimeout caller requestTimeout :=
    Nat.not_lt.mpr (Nat.le_trans (Nat.add_le_add_left hcap now) hclock)
  show (if effectiveTimeout caller requestTimeout = 0 then _
    else if lastInstant < now + effectiveTimeout caller requestTimeout then _ else _) = _
  rw [if_neg (Nat.ne_of_gt hpos), if_neg hend]
  rfl

/-- The cap of the runtime, which starts later, does not move the deadline. -/
theorem server_deadline_cap (hcap : timeout ≤ requestTimeout) (hlater : now ≤ later)
    (hclock : later + requestTimeout ≤ lastInstant) :
    ∃ server, serverDeadline lastInstant requestTimeout later = .ok server ∧
      min (now + timeout) server = now + timeout :=
  ⟨later + requestTimeout, if_neg (Nat.not_lt.mpr hclock),
    Nat.min_eq_left (Nat.add_le_add hlater hcap)⟩

end

/-! ## What stands before the deadline -/

section

variable {limits : Limits} {catalog : ModelCatalog} {state : CallState}

/-- The application resolves the model of the call, or refuses it. -/
theorem resolve_served_cases (state : CallState) (catalog : ModelCatalog) (model : String) :
    (catalog.resolve model = none ∧
      state.resolveServed catalog model = .error catalogRequestError) ∨
    ∃ manifest, catalog.resolve model = some manifest ∧
      ((state.application.shuttingDown = false ∧
        state.preload.preloadPending manifest.canonicalId = false ∧
        state.resolveServed catalog model = .ok manifest) ∨
      ((state.application.shuttingDown = true ∨
        state.preload.preloadPending manifest.canonicalId = true) ∧
        state.resolveServed catalog model =
          .error (.new .modelUnavailable .modelUnavailable))) := by
  unfold CallState.resolveServed
  cases catalog.resolve model with
  | none => exact .inl ⟨rfl, rfl⟩
  | some manifest =>
      refine .inr ⟨manifest, rfl, ?_⟩
      dsimp only
      cases hshutting : state.application.shuttingDown with
      | true => exact .inr ⟨.inl rfl, rfl⟩
      | false =>
          cases hpending : state.preload.preloadPending manifest.canonicalId with
          | true => exact .inr ⟨.inr rfl, rfl⟩
          | false => exact .inl ⟨rfl, rfl, rfl⟩

/-- A lease is given on the registered slot if it accepts. -/
theorem lease_slot_is_ok_iff {inner : Inner} {id : String} :
    (∃ key, inner.leaseSlot id = .ok key) ↔
      ∃ key, inner.registry.models id = some key ∧ inner.accepting key = true := by
  unfold Inner.leaseSlot
  cases inner.registry.models id with
  | none => simp
  | some key => cases haccepting : inner.accepting key <;> simp [haccepting]

/-- The call finds a slot and leases one, or the model is unavailable. -/
theorem lease_model_cases (state : CallState) (id : String) :
    (state.leaseModel id = .ok () ∧
      (∃ key, state.lookUp.registry.models id = some key ∧
        state.acceptance.accepting key = true) ∧
      ∃ key, state.lease.registry.models id = some key ∧ state.lease.accepting key = true) ∨
    (state.leaseModel id = .error (.public .modelUnavailable) ∧ ¬ state.Serves id) := by
  unfold CallState.leaseModel
  cases hfound : state.lookUp.registry.models id with
  | none =>
      refine .inr ⟨rfl, fun h => ?_⟩
      obtain ⟨key, hkey, _⟩ := h.found
      rw [hfound] at hkey
      cases hkey
  | some key =>
      dsimp only
      cases haccepting : state.acceptance.accepting key with
      | false =>
          refine .inr ⟨rfl, fun h => ?_⟩
          obtain ⟨other, hother, haccepts⟩ := h.found
          rw [hfound, Option.some.injEq] at hother
          rw [← hother, haccepting] at haccepts
          cases haccepts
      | true =>
          cases hlease : state.lease.leaseSlot id with
          | ok leased =>
              exact .inl ⟨rfl, ⟨key, rfl, haccepting⟩, lease_slot_is_ok_iff.mp ⟨leased, hlease⟩⟩
          | error error =>
              refine .inr ⟨rfl, fun h => ?_⟩
              obtain ⟨leased, hleased⟩ := lease_slot_is_ok_iff.mpr h.leased
              rw [hlease] at hleased
              cases hleased

/-- The runtime refuses inputs as an invalid request. -/
theorem validate_raw_from_error {maxInputBytes maxRequestBytes total : Nat} {inputs : List String}
    {error : EngineFailure}
    (h : validateRawFrom maxInputBytes maxRequestBytes total inputs = .error error) :
    error = .public .invalidRequest := by
  induction inputs generalizing total with
  | nil => cases h
  | cons input rest ih =>
      unfold validateRawFrom at h
      split at h
      · exact (Except.error.inj h).symm
      · split at h
        · exact (Except.error.inj h).symm
        · split at h
          · exact (Except.error.inj h).symm
          · exact ih h

/-- The inputs are within the limits, or the request is invalid. -/
theorem admit_inputs_cases (limits : Limits) (maxBatchWait : Nat) (inputs : List String) :
    (admitInputs (.fromLimits limits maxBatchWait) inputs = .ok () ∧ limits.Admits inputs) ∨
    (admitInputs (.fromLimits limits maxBatchWait) inputs = .error (.public .invalidRequest) ∧
      ¬ limits.Admits inputs) := by
  have hiff := @admit_inputs_ok_iff limits maxBatchWait inputs
  cases hchecked : admitInputs (.fromLimits limits maxBatchWait) inputs with
  | ok _ => exact .inl ⟨rfl, hiff.mp hchecked⟩
  | error error =>
      refine .inr ⟨?_, fun h => ?_⟩
      · unfold admitInputs at hchecked
        split at hchecked
        · rw [Except.error.inj hchecked]
        · rw [validate_raw_from_error hchecked]
      · rw [hiff.mpr h] at hchecked
        cases hchecked

/-- The deadline of the application stands, if the runtime takes the call. -/
theorem control_deadline_eq {lastInstant timeout : Nat} {now later : Instant} (id : String)
    (inputs : List String) (state : CallState) (hcap : timeout ≤ limits.requestTimeout)
    (hlater : now ≤ later) (hclock : later + limits.requestTimeout ≤ lastInstant) :
    controlDeadline lastInstant (.fromLimits limits defaultBatchWait) state id inputs
        (some (now + timeout)) later =
      if state.admission.admitWork.isNone then .error (.public .modelUnavailable)
      else admitInputs (.fromLimits limits defaultBatchWait) inputs >>= fun _ =>
        state.leaseModel id >>= fun _ => .ok (now + timeout) := by
  obtain ⟨server, hserver, hmin⟩ := server_deadline_cap hcap hlater hclock
  show (serverDeadline lastInstant limits.requestTimeout later >>= fun server => _) = _
  rw [hserver]
  cases state.admission.admitWork with
  | none => rfl
  | some updates =>
      show (admitInputs (.fromLimits limits defaultBatchWait) inputs >>= fun _ =>
        state.leaseModel id >>= fun _ => Except.ok (min (now + timeout) server)) = _
      rw [hmin]
      rfl

/-- What comes of a call in the runtime, whose deadline the application has set. -/
theorem control_deadline_cases {lastInstant timeout : Nat} {now later : Instant} (id : String)
    (inputs : List String) (state : CallState) (hcap : timeout ≤ limits.requestTimeout)
    (hlater : now ≤ later) (hclock : later + limits.requestTimeout ≤ lastInstant) :
    let control := controlDeadline lastInstant (.fromLimits limits defaultBatchWait) state id inputs
      (some (now + timeout)) later
    (control = .ok (now + timeout) ∧ state.admission.admitWork.isSome = true ∧
      limits.Admits inputs ∧
      (∃ key, state.lookUp.registry.models id = some key ∧
        state.acceptance.accepting key = true) ∧
      ∃ key, state.lease.registry.models id = some key ∧ state.lease.accepting key = true) ∨
    (control = .error (.public .invalidRequest) ∧ ¬ limits.Admits inputs) ∨
    (control = .error (.public .modelUnavailable) ∧ ¬ state.Serves id) := by
  dsimp only
  rw [control_deadline_eq id inputs state hcap hlater hclock]
  cases hadmitted : state.admission.admitWork with
  | none =>
      refine .inr (.inr ⟨rfl, fun h => ?_⟩)
      have hchecked := h.admitted
      rw [hadmitted] at hchecked
      cases hchecked
  | some updates =>
      rw [if_neg (by simp)]
      rcases admit_inputs_cases limits defaultBatchWait inputs with ⟨hchecked, hinputs⟩ |
        ⟨hchecked, hinputs⟩
      · rw [hchecked]
        rcases lease_model_cases state id with ⟨hlease, hfound, hleased⟩ | ⟨hlease, hserves⟩
        · refine .inl ⟨?_, rfl, hinputs, hfound, hleased⟩
          show (state.leaseModel id >>= fun _ => _) = _
          rw [hlease]
          rfl
        · refine .inr (.inr ⟨?_, hserves⟩)
          show (state.leaseModel id >>= fun _ => _) = _
          rw [hlease]
          rfl
      · rw [hchecked]
        exact .inr (.inl ⟨rfl, hinputs⟩)

/-- What comes of a call in the application and the runtime, if the timeout is not zero. -/
theorem embed_deadline_cases {lastInstant : Nat} {command : EmbedCommand} {caller : Option Nat}
    {now later : Instant} (hpos : 0 < effectiveTimeout caller limits.requestTimeout)
    (hlater : now ≤ later) (hclock : later + limits.requestTimeout ≤ lastInstant) :
    let control := embedDeadline lastInstant limits catalog state command caller now later
    (control = .ok (now + effectiveTimeout caller limits.requestTimeout) ∧
      (∃ manifest, catalog.resolve command.model = some manifest ∧
        state.Serves manifest.canonicalId) ∧ limits.Admits command.input) ∨
    (∃ error, control = .error error ∧
      ((error.publicError = PublicError.forCode .invalidRequest ∧
        (catalog.resolve command.model = none ∨ ¬ limits.Admits command.input)) ∨
      (error.publicError = PublicError.forCode .modelUnavailable ∧
        ∃ manifest, catalog.resolve command.model = some manifest ∧
          ¬ state.Serves manifest.canonicalId))) := by
  have hnow : now + limits.requestTimeout ≤ lastInstant :=
    Nat.le_trans (Nat.add_le_add_right hlater _) hclock
  dsimp only
  unfold embedDeadline
  rcases resolve_served_cases state catalog command.model with ⟨hnone, hserved⟩ |
    ⟨manifest, hmanifest, ⟨hrunning, hloaded, hserved⟩ | ⟨hwithheld, hserved⟩⟩
  · rw [hserved]
    exact .inr ⟨_, rfl, .inl ⟨rfl, .inl hnone⟩⟩
  · rw [hserved]
    show ((applicationDeadline _ _ _ _ >>= fun deadline => _) = _ ∧ _) ∨
      ∃ error, (applicationDeadline _ _ _ _ >>= fun deadline => _) = _ ∧ _
    rw [application_deadline_eq hpos hnow]
    show (Except.mapError _ (controlDeadline _ _ _ _ _ _ _) = _ ∧ _) ∨
      ∃ error, Except.mapError _ (controlDeadline _ _ _ _ _ _ _) = _ ∧ _
    rcases control_deadline_cases manifest.canonicalId command.input state
      (Nat.min_le_right (caller.getD limits.requestTimeout) limits.requestTimeout)
        hlater hclock with
      ⟨hcontrol, hadmitted, hinputs, hfound, hleased⟩ | ⟨hcontrol, hinputs⟩ | ⟨hcontrol, hserves⟩
    all_goals
      -- The timeout that the application hands on is that of the adapter.
      change controlDeadline _ _ _ _ _ (some (now + effectiveTimeout caller _)) _ = _ at hcontrol
      rw [hcontrol]
    · exact .inl ⟨rfl, ⟨manifest, hmanifest, hrunning, hloaded, hadmitted,
        hfound, hleased⟩, hinputs⟩
    · exact .inr ⟨_, rfl, .inl ⟨rfl, .inr hinputs⟩⟩
    · exact .inr ⟨_, rfl, .inr ⟨rfl, manifest, hmanifest, hserves⟩⟩
  · rw [hserved]
    refine .inr ⟨_, rfl, .inr ⟨rfl, manifest, hmanifest, fun h => ?_⟩⟩
    rcases hwithheld with hshutting | hpending
    · cases hshutting.symm.trans h.running
    · cases hpending.symm.trans h.loaded

/-- The adapter passes the model and the inputs on, or the options are an invalid request. -/
theorem grpc_command_cases (request : EmbedRequest) :
    (∃ command, grpcCommand request = .ok command ∧ command.model = request.model ∧
      command.input = request.input) ∨
    grpcCommand request = .error invalidRequestStatus := by
  unfold grpcCommand decodeOptions
  cases protoTask request.task with
  | none => exact .inr rfl
  | some task =>
      cases protoTruncation request.truncation with
      | none => exact .inr rfl
      | some truncation => exact .inl ⟨_, rfl, rfl, rfl⟩

end

section

variable {limits : Limits} {catalog : ModelCatalog} {state : CallState} {metadata : HeaderMap}
  {request : EmbedRequest}

/-- A call that is refused does not pass. -/
theorem Refused.not_entered {error : PublicError} {caller : Option Nat}
    (h : Refused limits catalog state metadata request error) :
    ¬ Entered limits catalog state metadata request caller := by
  intro hentered
  cases h with
  | header h => exact h caller hentered.header
  | zero h =>
      have hheader := hentered.header
      rw [h, Except.ok.injEq] at hheader
      exact hentered.positive hheader.symm
  | options h =>
      obtain ⟨command, hcommand⟩ := hentered.options
      exact h command hcommand
  | unknown h =>
      obtain ⟨manifest, hmanifest, _⟩ := hentered.served
      cases h.symm.trans hmanifest
  | inputs h => exact h hentered.inputs
  | unavailable hmodel h =>
      obtain ⟨manifest, hmanifest, hserves⟩ := hentered.served
      cases hmodel.symm.trans hmanifest
      exact h hserves

/-- A call whose header is accepted goes on with its options and then in the application. -/
theorem grpc_deadlines_eq {lastInstant : Nat} {caller : Option Nat} {first second third : Instant}
    (hheader : parseGrpcTimeout metadata = .ok caller) (hpositive : caller ≠ some 0) :
    grpcDeadlines lastInstant limits catalog state metadata request first second third =
      grpcCommand request >>= fun command =>
        (embedDeadline lastInstant limits catalog state command caller second third).mapError
          ApplicationError.publicError >>= fun control =>
        .ok
          { timer := first + effectiveTimeout caller limits.requestTimeout
            control := control } := by
  show (parseGrpcTimeout metadata >>= fun caller => _) = _
  rw [hheader]
  show (if caller = some 0 then _ else _ : Except PublicError CallDeadlines) = _
  rw [if_neg hpositive]
  rfl

/-- A call comes as far as a deadline, or it is refused. -/
theorem grpc_deadlines_cases (hlimits : validateBounds limits = .ok ()) {lastInstant : Nat}
    (first : Instant) {second third : Instant} (hthird : second ≤ third)
    (hclock : third + limits.requestTimeout ≤ lastInstant) :
    let deadlines := grpcDeadlines lastInstant limits catalog state metadata request first second
      third
    (∃ caller, Entered limits catalog state metadata request caller ∧ deadlines = .ok
      { timer := first + effectiveTimeout caller limits.requestTimeout
        control := second + effectiveTimeout caller limits.requestTimeout }) ∨
    ∃ error, deadlines = .error error ∧
      Refused limits catalog state metadata request error := by
  dsimp only
  cases hheader : parseGrpcTimeout metadata with
  | error error =>
      -- The header comes first, whatever else is wrong with the call.
      have hinvalid := parse_grpc_timeout_error hheader
      refine .inr ⟨error, ?_, hinvalid ▸ .header (by rw [hheader]; exact nofun)⟩
      unfold grpcDeadlines
      rw [hheader]
      rfl
  | ok caller =>
      by_cases hzero : caller = some 0
      -- A timeout of zero is over before the options are looked at.
      · subst hzero
        refine .inr ⟨_, ?_, .zero hheader⟩
        unfold grpcDeadlines
        rw [hheader]
        rfl
      · have hpos := effective_timeout_pos (request_timeout_pos hlimits) hzero
        rw [grpc_deadlines_eq hheader hzero]
        rcases grpc_command_cases request with ⟨command, hcommand, hmodel, hinput⟩ | hcommand
        · have hcontrol :=
            @embed_deadline_cases limits catalog state _ command caller _ _ hpos hthird hclock
          rw [hmodel, hinput] at hcontrol
          rw [hcommand]
          rcases hcontrol with ⟨hcontrol, hserved, hinputs⟩ | ⟨error, hcontrol, hreason⟩
          · refine .inl ⟨caller, ⟨hheader, hzero, ⟨command, hcommand⟩, hserved, hinputs⟩, ?_⟩
            show (Except.mapError _ (embedDeadline _ _ _ _ _ _ _ _) >>= fun control => _) = _
            rw [hcontrol]
            rfl
          · refine .inr ⟨error.publicError, ?_, ?_⟩
            · show (Except.mapError _ (embedDeadline _ _ _ _ _ _ _ _) >>= fun control => _) = _
              rw [hcontrol]
              rfl
            · rcases hreason with ⟨hcode, hunknown | hinputs⟩ |
                ⟨hcode, manifest, hmanifest, hserves⟩
              · exact hcode ▸ .unknown hunknown
              · exact hcode ▸ .inputs hinputs
              · exact hcode ▸ .unavailable hmanifest hserves
        · refine .inr ⟨_, ?_, .options ?_⟩
          · rw [hcommand]
            rfl
          · rw [hcommand]
            exact nofun

end

/-- The deadlines of a gRPC call under accepted limits, as long as the clock does not come to its
end. Exactly the calls that pass everything before it get a deadline (`Entered`); the others fail as
invalid requests, for want of the model or, with a timeout of zero, as too late (`Refused`). A call
gets the timeout it asked for, or that of the server if it asked for none or for more, counted from
where the application starts, and the timer of the adapter is never later. -/
theorem grpc_deadlines {limits : Limits} (hlimits : validateBounds limits = .ok ())
    (lastInstant : Nat) (catalog : ModelCatalog) (state : CallState) (metadata : HeaderMap)
    (request : EmbedRequest) {first second third : Instant} (hsecond : first ≤ second)
    (hthird : second ≤ third) (hclock : third + limits.requestTimeout ≤ lastInstant) :
    let result := grpcDeadlines lastInstant limits catalog state metadata request first second third
    (∀ deadlines, result = .ok deadlines ↔
      ∃ caller, Entered limits catalog state metadata request caller ∧ deadlines =
        { timer := first + effectiveTimeout caller limits.requestTimeout
          control := second + effectiveTimeout caller limits.requestTimeout }) ∧
    (∀ error, result = .error error → Refused limits catalog state metadata request error) ∧
    (∀ deadlines, result = .ok deadlines →
      ∃ timeout, 0 < timeout ∧ timeout ≤ limits.requestTimeout ∧
        deadlines.control = second + timeout ∧ deadlines.timer = first + timeout ∧
        deadlines.timer ≤ deadlines.control ∧
        ((parseGrpcTimeout metadata = .ok none ∧ timeout = limits.requestTimeout) ∨
          ∃ text duration, metadata.getAll "grpc-timeout" = [text] ∧ TimeoutText text duration ∧
            timeout = min duration limits.requestTimeout)) := by
  dsimp only
  rcases @grpc_deadlines_cases limits catalog state metadata request hlimits lastInstant first _ _
    hthird hclock with ⟨caller, hentered, hgiven⟩ | ⟨error, hgiven, hrefused⟩
  · rw [hgiven]
    refine ⟨fun deadlines => ⟨?_, ?_⟩, nofun, ?_⟩
    · intro h
      exact ⟨caller, hentered, (Except.ok.inj h).symm⟩
    · intro h
      obtain ⟨other, hother, rfl⟩ := h
      -- The header is read as one timeout only.
      have hsame := hentered.header.symm.trans hother.header
      rw [Except.ok.inj hsame]
    · intro deadlines hdeadlines
      cases hdeadlines
      refine ⟨_, effective_timeout_pos (request_timeout_pos hlimits) hentered.positive,
        Nat.min_le_right _ _, rfl, rfl, Nat.add_le_add_right hsecond _, ?_⟩
      rcases (parse_grpc_timeout_ok_iff.mp hentered.header).2 with ⟨hnone, _⟩ |
        ⟨text, duration, hsome, htext, hmeans⟩
      · left
        rw [hentered.header, hnone]
        exact ⟨rfl, Nat.min_self _⟩
      · right
        rw [hsome]
        exact ⟨text, duration, htext, hmeans, rfl⟩
  · rw [hgiven]
    refine ⟨fun deadlines => ⟨nofun, ?_⟩, ?_, nofun⟩
    · intro h
      obtain ⟨caller, hentered, _⟩ := h
      exact absurd hentered hrefused.not_entered
    · intro other hother
      cases hother
      exact hrefused

/-- A runtime with one model. -/
def servingRuntime (id : String) : Inner :=
  { Inner.new with
    registry := { Inner.new.registry with models := fun name => if name = id then some 1 else none }
    accepting := fun key => key = 1 }

/-- A call of a model that is served. -/
def servingState (id : String) : CallState :=
  { application := EmbeddingApplication.new
    preload := EmbeddingApplication.new
    admission := servingRuntime id
    lookUp := servingRuntime id
    acceptance := servingRuntime id
    lease := servingRuntime id }

/-- A caller that asks for five milliseconds gets them, from where the application starts. -/
theorem grpc_deadlines_millis :
    grpcDeadlines 100000000000 .small
        ⟨fun name => if name = "m" then some .fixture else none, fun _ => none, fun _ => none⟩
        (servingState Manifest.fixture.canonicalId) [("grpc-timeout", [53, 109])]
        ⟨"m", ["abcd"], 0, 0, none, none⟩ 100 200 300 =
      .ok { timer := 5000100, control := 5000200 } := by
  refine ((grpc_deadlines (by decide) 100000000000 _ _ _ _ (by decide) (by decide) (by decide)).1
    _).mpr ⟨some 5000000, ⟨by decide, by decide, ⟨_, rfl⟩, ⟨.fixture, by decide, ?_⟩, ?_⟩, rfl⟩
  · exact ⟨rfl, rfl, rfl, ⟨1, by decide, rfl⟩, 1, by decide, rfl⟩
  · exact (@admit_inputs_ok_iff .small 4 _).mp (by decide)

end EmbeddingServer
