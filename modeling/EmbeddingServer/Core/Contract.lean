import EmbeddingServer.Lib.Checked

/-!
# Engine-neutral embedding contracts

The value types of `impossible-embedding-core`. Every type whose constructor is
checked in the source carries the checked facts as fields, so an unchecked value
cannot be built: a batch is non-empty, a requested model name is not blank, a cost
multiplies out without overflow, and a usage record has an exact total.

Machine words are natural numbers; `usize` and `u64` are 64 bits wide.
-/

namespace EmbeddingServer

/-- The width of `usize` and `u64`. -/
def wordBits : Nat := 64

/-- Unicode `White_Space`, the characters Rust's `str::trim` removes. -/
def isWhitespace (c : Char) : Bool :=
  let n := c.toNat
  (0x9 ≤ n && n ≤ 0xD) || n == 0x20 || n == 0x85 || n == 0xA0 || n == 0x1680 ||
    (0x2000 ≤ n && n ≤ 0x200A) || n == 0x2028 || n == 0x2029 || n == 0x202F ||
    n == 0x205F || n == 0x3000

/-- `value.trim().is_empty()`: trimming removes everything exactly when every character is
white space. -/
def isBlank (value : String) : Bool :=
  value.toList.all isWhitespace

/-- Stable, privacy-safe codes exposed by every transport. -/
inductive ErrorCode where
  | invalidRequest
  | modelUnavailable
  | queue_full
  | cancelled
  | deadlineExceeded
  | inferenceFailed
  | internal
  deriving DecidableEq, Repr

/-- Whether retrying a failed request can be useful. -/
inductive Retryability where
  | never
  | retryable
  | unknown
  deriving DecidableEq, Repr

/-- Stable error data that is safe to serialize to clients and logs. -/
structure PublicError where
  code : ErrorCode
  retryability : Retryability
  message : String
  deriving DecidableEq, Repr

/-- The privacy-reviewed representation of a stable code. -/
def PublicError.forCode (code : ErrorCode) : PublicError :=
  match code with
  | .invalidRequest => ⟨code, .never, "the embedding request is invalid"⟩
  | .modelUnavailable => ⟨code, .retryable, "the requested model is unavailable"⟩
  | .queue_full => ⟨code, .retryable, "the request queue is full"⟩
  | .cancelled => ⟨code, .never, "the request was cancelled"⟩
  | .deadlineExceeded => ⟨code, .never, "the request deadline was exceeded"⟩
  | .inferenceFailed => ⟨code, .unknown, "embedding inference failed"⟩
  | .internal => ⟨code, .unknown, "an internal server error occurred"⟩

/-- The public representation of a code carries that code. -/
@[simp] theorem PublicError.for_code_code (code : ErrorCode) :
    (PublicError.forCode code).code = code := by
  cases code <;> rfl

/-- An engine failure with separated public and private detail. The private diagnostic source
is an opaque text here. -/
structure EngineFailure where
  publicError : PublicError
  source : Option String
  deriving DecidableEq, Repr

/-- `EngineFailure::public`: a failure without private diagnostics. -/
def EngineFailure.public (code : ErrorCode) : EngineFailure :=
  ⟨PublicError.forCode code, none⟩

/-- A validated non-empty batch of texts. -/
structure EmbeddingBatch where
  inputs : List String
  nonempty : inputs ≠ []

/-- `EmbeddingBatch::new`. -/
def EmbeddingBatch.new (inputs : List String) : Except EngineFailure EmbeddingBatch :=
  if h : inputs = [] then .error (.public .invalidRequest) else .ok ⟨inputs, h⟩

/-- A user-supplied model name that is not blank. -/
structure RequestedModel where
  name : String
  nonblank : isBlank name = false

/-- `RequestedModel::new`. -/
def RequestedModel.new (value : String) : Except EngineFailure RequestedModel :=
  if h : isBlank value = false then .ok ⟨value, h⟩ else .error (.public .invalidRequest)

/-- Exact tokenization cost of a batch. -/
structure EmbeddingBatchCost where
  items : Nat
  tokens : Nat
  maxSequenceLength : Nat
  items_pos : 0 < items
  length_pos : 0 < maxSequenceLength
  tokens_le : tokens ≤ items * maxSequenceLength
  padded_fits : items * maxSequenceLength < 2 ^ wordBits

/-- `EmbeddingBatchCost::new`. -/
def EmbeddingBatchCost.new (items tokens maxSequenceLength : Nat) :
    Except EngineFailure EmbeddingBatchCost :=
  if h : 0 < items ∧ 0 < maxSequenceLength ∧ tokens ≤ items * maxSequenceLength ∧
      items * maxSequenceLength < 2 ^ wordBits then
    .ok ⟨items, tokens, maxSequenceLength, h.1, h.2.1, h.2.2.1, h.2.2.2⟩
  else .error (.public .invalidRequest)

/-- `EmbeddingBatchCost::padded_tokens`. -/
def EmbeddingBatchCost.paddedTokens (cost : EmbeddingBatchCost) : Except EngineFailure Nat :=
  match Checked.mul wordBits cost.items cost.maxSequenceLength with
  | some padded => .ok padded
  | none => .error (.public .invalidRequest)

/-- Semantic purpose of an embedding input. -/
inductive EmbeddingTask where
  | query
  | document
  deriving DecidableEq, Repr

/-- Behavior for inputs beyond a model's declared limit. -/
inductive Truncation where
  | reject
  | truncate
  deriving DecidableEq, Repr

/-- Transport-independent request options. -/
structure EmbedOptions where
  task : EmbeddingTask
  truncation : Truncation
  dimensions : Option Nat
  normalize : Option Bool
  deriving DecidableEq, Repr

/-- `EmbedOptions::default`. -/
def EmbedOptions.default : EmbedOptions :=
  ⟨.document, .reject, none, none⟩

/-- Identity of the exact model artifact and runtime used for inference. -/
structure ResolvedModelIdentity where
  canonicalId : String
  revision : String
  runtime : String
  artifactFingerprint : String
  semanticFingerprint : String
  deriving DecidableEq, Repr

/-- A binary32 value, given by its bits. -/
structure F32 where
  bits : BitVec 32
  deriving DecidableEq

/-- `f32::is_finite`: the exponent field is not all ones. -/
def F32.isFinite (value : F32) : Bool :=
  value.bits.extractLsb 30 23 != BitVec.allOnes 8

/-- Exact tokenizer usage: ordered counts per input with their checked total. -/
structure EmbeddingUsage where
  inputTokens : List Nat
  totalTokens : Nat
  nonempty : inputTokens ≠ []
  total_eq : Checked.trySum wordBits inputTokens = some totalTokens

/-- `EmbeddingUsage::new`. -/
def EmbeddingUsage.new (inputTokens : List Nat) : Except EngineFailure EmbeddingUsage :=
  if h : inputTokens = [] then .error (.public .inferenceFailed)
  else
    match ht : Checked.trySum wordBits inputTokens with
    | none => .error (.public .inferenceFailed)
    | some total => .ok ⟨inputTokens, total, h, ht⟩

/-- Usage built from counts reports exactly these counts. -/
theorem EmbeddingUsage.new_input_tokens {tokens : List Nat} {usage : EmbeddingUsage}
    (h : EmbeddingUsage.new tokens = .ok usage) : usage.inputTokens = tokens := by
  unfold EmbeddingUsage.new at h
  split at h
  · cases h
  · split at h
    · cases h
    · cases h
      rfl

/-- Output vectors in the order of their inputs. -/
structure EmbeddingOutput where
  vectors : List (List F32)
  model : ResolvedModelIdentity
  usage : EmbeddingUsage

end EmbeddingServer
