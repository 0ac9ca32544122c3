import EmbeddingServer.Runtime.Preflight
import EmbeddingServer.Server.Credentials

/-!
# Input limits of the transport and of the runtime

The HTTP handlers check a list of inputs with `validate_inputs` before they hand it to the
application, and `embed_inner` checks it again under the `BatchPolicy` that
`BatchPolicy::from_limits` copies out of the same `Limits`. The first adds all lengths up and
compares the sum once, the second compares every partial sum. Both decide `WithinLimits`, which
makes them accept the same lists.
-/

namespace EmbeddingServer

/-! ## The policy of the runtime -/

/-- `BatchPolicy::from_limits`; the durations are in the unit of the limits. -/
def BatchPolicy.fromLimits (limits : Limits) (maxBatchWait : Nat) : BatchPolicy :=
  { queueDepth := limits.maxQueueDepth
    maxItems := limits.maxItems
    maxInputBytes := limits.maxInputBytes
    maxRequestBytes := limits.maxRequestBytes
    maxTokens := limits.maxTokens
    maxBatchItems := limits.maxBatchItems
    maxBatchTokens := limits.maxBatchTokens
    maxBatchWait := maxBatchWait
    blockingConcurrency := limits.maxConcurrency
    requestTimeout := limits.requestTimeout }

/-! ## The check of the transport -/

/-- `ErrorFlavor`. -/
inductive ErrorFlavor where
  | native
  | compatibility
  deriving DecidableEq, Repr

/-- `ErrorCode::as_str`. -/
def ErrorCode.asStr : ErrorCode → String
  | .invalidRequest => "invalid_request"
  | .modelUnavailable => "model_unavailable"
  | .queue_full => "queue_full"
  | .cancelled => "cancelled"
  | .deadlineExceeded => "deadline_exceeded"
  | .inferenceFailed => "inference_failed"
  | .internal => "internal"

/-- The JSON body of an error: `ErrorBody` or `CompatibilityErrorBody`. -/
inductive ErrorBody where
  | native (code message : String) (retryable : Bool)
  | compatibility (message type : String) (param : Option String) (code : String)
  deriving DecidableEq, Repr

/-- A response that reports an error. -/
structure ErrorResponse where
  status : Nat
  error : ErrorBody
  deriving DecidableEq, Repr

/-- `wire_error`. -/
def wireError (status : Nat) (code : ErrorCode) : ErrorResponse :=
  let error := PublicError.forCode code
  ⟨status, .native error.code.asStr error.message (error.retryability = .retryable)⟩

/-- `compatibility_error`. -/
def compatibilityError (status : Nat) (code : ErrorCode) : ErrorResponse :=
  let type := if code = .invalidRequest then "invalid_request_error" else "server_error"
  ⟨status, .compatibility (PublicError.forCode code).message type none code.asStr⟩

/-- `error_response`. -/
def errorResponse (flavor : ErrorFlavor) (status : Nat) (code : ErrorCode) : ErrorResponse :=
  match flavor with
  | .native => wireError status code
  | .compatibility => compatibilityError status code

/-- `StatusCode::BAD_REQUEST`. -/
def badRequest : Nat := 400

/-- `StatusCode::PAYLOAD_TOO_LARGE`. -/
def payloadTooLarge : Nat := 413

/-- The `try_fold` of `validate_inputs`, with the bytes counted so far. -/
def inputBytesFrom (maxInputBytes : Nat) : Nat → List String → Option Nat
  | total, [] => some total
  | total, input :: rest =>
      if maxInputBytes < input.utf8ByteSize then none
      else
        Checked.add wordBits total input.utf8ByteSize >>= fun total =>
          inputBytesFrom maxInputBytes total rest

/-- `validate_inputs`. -/
def validateInputs (limits : Limits) (model : String) (inputs : List String)
    (flavor : ErrorFlavor) : Except ErrorResponse Unit :=
  if model.isEmpty ∨ inputs = [] ∨ limits.maxItems < inputs.length then
    .error (errorResponse flavor badRequest .invalidRequest)
  else
    match inputBytesFrom limits.maxInputBytes 0 inputs with
    | none => .error (errorResponse flavor payloadTooLarge .invalidRequest)
    | some bytes =>
        if limits.maxRequestBytes < bytes then
          .error (errorResponse flavor payloadTooLarge .invalidRequest)
        else .ok ()

/-! ## What both checks decide -/

/-- The number of bytes of a list of inputs. -/
def inputBytes (inputs : List String) : Nat :=
  (inputs.map String.utf8ByteSize).sum

/-- The inputs after `total` bytes are within the limits: each on its own, and all together. -/
structure WithinLimits (maxInputBytes maxRequestBytes total : Nat) (inputs : List String) :
    Prop where
  each : ∀ input ∈ inputs, input.utf8ByteSize ≤ maxInputBytes
  together : total + inputBytes inputs ≤ maxRequestBytes
  countable : total + inputBytes inputs < 2 ^ wordBits

section Limits

variable {maxInputBytes maxRequestBytes total : Nat} {input : String} {rest : List String}

/-- The first of several inputs that are within the limits. -/
theorem within_limits_cons :
    WithinLimits maxInputBytes maxRequestBytes total (input :: rest) ↔
      input.utf8ByteSize ≤ maxInputBytes ∧
        WithinLimits maxInputBytes maxRequestBytes (total + input.utf8ByteSize) rest := by
  have hsum : total + inputBytes (input :: rest) =
      total + input.utf8ByteSize + inputBytes rest := by
    rw [inputBytes, List.map_cons, List.sum_cons, inputBytes]
    omega
  constructor
  · intro h
    have heach := List.forall_mem_cons.mp h.each
    exact ⟨heach.1, heach.2, hsum ▸ h.together, hsum ▸ h.countable⟩
  · rintro ⟨hfirst, h⟩
    exact ⟨List.forall_mem_cons.mpr ⟨hfirst, h.each⟩, hsum ▸ h.together, hsum ▸ h.countable⟩

/-- No inputs are within the limits when the bytes before them are. -/
theorem within_limits_nil :
    WithinLimits maxInputBytes maxRequestBytes total [] ↔
      total ≤ maxRequestBytes ∧ total < 2 ^ wordBits := by
  constructor
  · exact fun h => ⟨h.together, h.countable⟩
  · exact fun h => ⟨fun _ hmem => absurd hmem List.not_mem_nil, h.1, h.2⟩

/-- The bytes before some inputs that are within the limits are. -/
theorem WithinLimits.before {inputs : List String}
    (h : WithinLimits maxInputBytes maxRequestBytes total inputs) :
    total ≤ maxRequestBytes ∧ total < 2 ^ wordBits := by
  have htogether := h.together
  have hcountable := h.countable
  omega

/-- The transport counts the bytes of exactly those inputs that it lets pass one by one. -/
theorem input_bytes_from_le_iff {inputs : List String} (hword : total < 2 ^ wordBits) :
    (∃ bytes, inputBytesFrom maxInputBytes total inputs = some bytes ∧ bytes ≤ maxRequestBytes) ↔
      WithinLimits maxInputBytes maxRequestBytes total inputs := by
  induction inputs generalizing total with
  | nil =>
      rw [within_limits_nil]
      constructor
      · rintro ⟨bytes, h, hle⟩
        cases h
        exact ⟨hle, hword⟩
      · rintro ⟨hle, _⟩
        exact ⟨total, rfl, hle⟩
  | cons input rest ih =>
      rw [within_limits_cons, inputBytesFrom]
      split
      · constructor
        · rintro ⟨_, h, _⟩
          cases h
        · rintro ⟨hfirst, _⟩
          omega
      · rename_i hfirst
        cases hadd : Checked.add wordBits total input.utf8ByteSize with
        | none =>
            have hover := Checked.add_eq_none_iff.mp hadd
            constructor
            · rintro ⟨_, h, _⟩
              cases h
            · rintro ⟨_, h⟩
              exact absurd h.before.2 hover
        | some sum =>
            obtain ⟨rfl, hsum⟩ := Checked.add_eq_some_iff.mp hadd
            rw [Option.bind_eq_bind, Option.bind_some, ih hsum]
            exact ⟨fun h => ⟨by omega, h⟩, And.right⟩

/-- The runtime accepts exactly the inputs that are within the limits. -/
theorem validate_raw_from_ok_iff {inputs : List String} (hbefore : total ≤ maxRequestBytes)
    (hword : total < 2 ^ wordBits) :
    validateRawFrom maxInputBytes maxRequestBytes total inputs = .ok () ↔
      WithinLimits maxInputBytes maxRequestBytes total inputs := by
  induction inputs generalizing total with
  | nil =>
      rw [within_limits_nil]
      exact ⟨fun _ => ⟨hbefore, hword⟩, fun _ => rfl⟩
  | cons input rest ih =>
      rw [within_limits_cons, validateRawFrom]
      split
      · constructor
        · intro h
          cases h
        · rintro ⟨hfirst, _⟩
          omega
      · rename_i hfirst
        cases hadd : Checked.add wordBits total input.utf8ByteSize with
        | none =>
            have hover := Checked.add_eq_none_iff.mp hadd
            constructor
            · intro h
              cases h
            · rintro ⟨_, h⟩
              exact absurd h.before.2 hover
        | some sum =>
            obtain ⟨rfl, hsum⟩ := Checked.add_eq_some_iff.mp hadd
            dsimp only
            split
            · rename_i hover
              constructor
              · intro h
                cases h
              · rintro ⟨_, h⟩
                exact absurd h.before.1 (Nat.not_le_of_lt hover)
            · rename_i hunder
              rw [ih (Nat.le_of_not_lt hunder) hsum]
              exact ⟨fun h => ⟨by omega, h⟩, And.right⟩

end Limits

/-- A list of inputs that a request may have under some limits. -/
def Limits.Admits (limits : Limits) (inputs : List String) : Prop :=
  inputs ≠ [] ∧ inputs.length ≤ limits.maxItems ∧
    WithinLimits limits.maxInputBytes limits.maxRequestBytes 0 inputs

/-- The transport accepts exactly the lists that the limits admit. -/
theorem validate_inputs_ok_iff {limits : Limits} {model : String} {inputs : List String}
    {flavor : ErrorFlavor} (hmodel : model ≠ "") :
    validateInputs limits model inputs flavor = .ok () ↔ limits.Admits inputs := by
  have hnamed : ¬ model.isEmpty = true := by
    rw [String.isEmpty_iff]
    exact hmodel
  rw [Limits.Admits, ← input_bytes_from_le_iff (Nat.two_pow_pos wordBits), validateInputs]
  split
  · rename_i hrefused
    constructor
    · intro h
      cases h
    · rintro ⟨hne, hlength, _⟩
      rcases hrefused with hempty | hnil | hlong
      · exact absurd hempty hnamed
      · exact absurd hnil hne
      · omega
  · rename_i hpassed
    rw [not_or, not_or] at hpassed
    obtain ⟨_, hne, hlong⟩ := hpassed
    cases hbytes : inputBytesFrom limits.maxInputBytes 0 inputs with
    | none =>
        constructor
        · intro h
          cases h
        · rintro ⟨_, _, _, h, _⟩
          cases h
    | some bytes =>
        dsimp only
        split
        · rename_i hover
          constructor
          · intro h
            cases h
          · rintro ⟨_, _, _, h, hle⟩
            cases h
            omega
        · rename_i hunder
          exact ⟨fun _ => ⟨hne, Nat.le_of_not_lt hlong, bytes, rfl, Nat.le_of_not_lt hunder⟩,
            fun _ => rfl⟩

/-- The runtime accepts exactly the lists that the limits of its policy admit. -/
theorem admit_inputs_ok_iff {limits : Limits} {maxBatchWait : Nat} {inputs : List String} :
    admitInputs (.fromLimits limits maxBatchWait) inputs = .ok () ↔ limits.Admits inputs := by
  rw [Limits.Admits, admitInputs]
  split
  · rename_i hrefused
    constructor
    · intro h
      cases h
    · rintro ⟨hne, hlength, _⟩
      rcases hrefused with hnil | hlong
      · exact absurd hnil hne
      · exact absurd hlength (Nat.not_le_of_lt hlong)
  · rename_i hpassed
    rw [not_or] at hpassed
    have hlength : inputs.length ≤ limits.maxItems := Nat.le_of_not_lt hpassed.2
    rw [validateRawInputs, validate_raw_from_ok_iff (Nat.zero_le _) (Nat.two_pow_pos wordBits)]
    exact ⟨fun h => ⟨hpassed.1, hlength, h⟩, fun h => h.2.2⟩

/-! ## The derived policy is valid -/

/-- Checks of a table that pass have passed for every row. -/
theorem for_m_ok {α : Type} {check : α → Except ConfigError Unit} {rows : List α}
    (h : rows.forM check = .ok ()) : ∀ row ∈ rows, check row = .ok () := by
  induction rows with
  | nil => exact fun _ hmem => absurd hmem List.not_mem_nil
  | cons first rest ih =>
      obtain ⟨_, hfirst, hrest⟩ := Checked.bind_ok.mp h
      exact List.forall_mem_cons.mpr ⟨hfirst, ih hrest⟩

/-- Limits that passed the validator are at least their minimum, and related to each other. -/
theorem validate_bounds_ok {limits : Limits} (h : validateBounds limits = .ok ()) :
    (∀ row ∈ limits.bounds, row.2.2.1 ≤ row.2.1) ∧
      limits.maxItems ≤ limits.maxBatchItems ∧ limits.maxInputBytes ≤ limits.maxRequestBytes ∧
      limits.maxTokens ≤ limits.maxBatchTokens := by
  unfold validateBounds at h
  obtain ⟨_, htable, h⟩ := Checked.bind_ok.mp h
  obtain ⟨_, hitems, h⟩ := Checked.bind_ok.mp h
  obtain ⟨_, hinput, h⟩ := Checked.bind_ok.mp h
  obtain ⟨_, _, htokens⟩ := Checked.bind_ok.mp h
  have hitems := of_decide_eq_false (refuse_if_ok hitems)
  have hinput := of_decide_eq_false (refuse_if_ok hinput)
  have htokens := of_decide_eq_false (refuse_if_ok htokens)
  refine ⟨?_, by omega, by omega, by omega⟩
  intro row hrow
  have hrange := refuse_if_ok (for_m_ok htable row hrow)
  rw [Bool.or_eq_false_iff, decide_eq_false_iff_not] at hrange
  exact Nat.le_of_not_lt hrange.1

/-- The policy of limits that passed the validator passes its own check. -/
theorem from_limits_validate {limits : Limits} (maxBatchWait : Nat)
    (h : validateBounds limits = .ok ()) :
    (BatchPolicy.fromLimits limits maxBatchWait).validate =
      .ok (.fromLimits limits maxBatchWait) := by
  obtain ⟨hrows, hitems, hinput, htokens⟩ := validate_bounds_ok h
  simp only [Limits.bounds, List.forall_mem_cons] at hrows
  obtain ⟨_, hinputBytes, hrequestBytes, hmaxItems, hmaxTokens, hqueue, hbatchItems, hbatchTokens,
    hconcurrency, htimeout, _⟩ := hrows
  unfold BatchPolicy.validate BatchPolicy.fromLimits
  rw [if_neg]
  dsimp only at *
  omega

/-- Under limits that the configuration accepts, the transport and the runtime accept the same
inputs, and the policy of the runtime is a valid one. -/
theorem input_limits_agree (limits : Limits) (maxBatchWait : Nat)
    (hlimits : validateBounds limits = .ok ()) :
    (BatchPolicy.fromLimits limits maxBatchWait).validate =
        .ok (.fromLimits limits maxBatchWait) ∧
      ∀ (model : String) (inputs : List String) (flavor : ErrorFlavor), model ≠ "" →
        (validateInputs limits model inputs flavor = .ok () ↔
          admitInputs (.fromLimits limits maxBatchWait) inputs = .ok ()) := by
  refine ⟨from_limits_validate maxBatchWait hlimits, ?_⟩
  intro model inputs flavor hmodel
  rw [validate_inputs_ok_iff hmodel, admit_inputs_ok_iff]

/-- Two items of at most four bytes, six together. -/
def Limits.small : Limits :=
  { maxBodyBytes := 64
    maxInputBytes := 4
    maxRequestBytes := 6
    maxItems := 2
    maxTokens := 8
    maxQueueDepth := 1
    maxBatchItems := 2
    maxBatchTokens := 8
    maxConcurrency := 1
    requestTimeout := 10000000
    shutdownTimeout := 10000000 }

/-- Six bytes pass both checks, and seven pass neither. -/
theorem input_limits_agree_small :
    (validateInputs .small "m" ["abcd", "ef"] .native = .ok () ↔
        admitInputs (.fromLimits .small 4) ["abcd", "ef"] = .ok ()) ∧
      (validateInputs .small "m" ["abcd", "efg"] .native = .ok () ↔
        admitInputs (.fromLimits .small 4) ["abcd", "efg"] = .ok ()) ∧
      admitInputs (.fromLimits .small 4) ["abcd", "ef"] = .ok () ∧
      admitInputs (.fromLimits .small 4) ["abcd", "efg"] ≠ .ok () := by
  have hagree := (input_limits_agree .small 4 (by decide)).2
  exact ⟨hagree "m" ["abcd", "ef"] .native (by decide),
    hagree "m" ["abcd", "efg"] .native (by decide), by decide, by decide⟩

end EmbeddingServer
