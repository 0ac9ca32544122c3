import EmbeddingServer.Core.Control
import EmbeddingServer.Lib.Binary32
import EmbeddingServer.Models.Manifest

/-!
# The ONNX engine

`preflight_with_options` and `embed_with_options` of `OnnxEmbeddingEngine`, with the tokenizers
that `load_candidate` prepares, the padded tensors, the pooling of hidden states and the
normalization.

The tokenizers crate and the inference session are outside. `TokenizersCrate` is what the first
does with declared truncation and padding, a `Session` is what the second returns for its named
input tensors. Tokenization without either is a field of the loaded tokenizer.
-/

namespace EmbeddingServer

/-! ## Arithmetic on f32 -/

/-- `f32` addition. -/
def F32.add (x y : F32) : F32 := ⟨Binary32.add x.bits y.bits⟩

/-- `f32` multiplication. -/
def F32.mul (x y : F32) : F32 := ⟨Binary32.mul x.bits y.bits⟩

/-- `f32` division. -/
def F32.div (x y : F32) : F32 := ⟨Binary32.div x.bits y.bits⟩

/-- `f32::sqrt`. -/
def F32.sqrt (x : F32) : F32 := ⟨Binary32.sqrt x.bits⟩

/-- `f32` comparison. -/
def F32.le (x y : F32) : Bool := Binary32.le x.bits y.bits

/-- `0.0_f32`. -/
def F32.zero : F32 := ⟨0#32⟩

/-- `1.0_f32`. -/
def F32.one : F32 := ⟨0x3f800000#32⟩

/-- `f32::EPSILON`. -/
def F32.epsilon : F32 := ⟨0x34000000#32⟩

/-- `Iterator::sum` on `f32`, whose neutral element is the negative zero. -/
def F32.sum (values : List F32) : F32 :=
  values.foldl F32.add ⟨0x80000000#32⟩

/-! ## Tokenizers -/

/-- One position of an `Encoding`. -/
structure Token where
  id : UInt32
  typeId : UInt32
  attentionMask : UInt32
  deriving DecidableEq, Repr

/-- `Encoding`. -/
abbrev Encoding := List Token

/-- `TruncationStrategy`. -/
inductive TruncationStrategy where
  | longestFirst
  | onlyFirst
  | onlySecond
  deriving DecidableEq, Repr

/-- `TruncationDirection` and `PaddingDirection`. -/
inductive Direction where
  | left
  | right
  deriving DecidableEq, Repr

/-- `TruncationParams`. -/
structure TruncationParams where
  maxLength : Nat
  strategy : TruncationStrategy
  stride : Nat
  direction : Direction
  deriving DecidableEq, Repr

/-- `PaddingParams`; a fixed length of `none` is the longest of the batch. -/
structure PaddingParams where
  fixed : Option Nat
  multiple : Option Nat
  direction : Direction
  padding : Token
  deriving DecidableEq, Repr

/-- What the tokenizers crate does with declared truncation and padding. -/
structure TokenizersCrate where
  /-- Truncation of the tokens of a text, which leaves room for the added special tokens. -/
  truncate : TruncationParams → Nat → List Token → Except String (List Token)
  /-- Padding of one encoding. -/
  pad : PaddingParams → Encoding → Encoding
  /-- `with_truncation` accepts the parameters, given the number of added special tokens. -/
  acceptsTruncation : TruncationParams → Nat → Bool

/-- A `Tokenizer` parsed from its JSON. -/
structure Tokenizer where
  /-- The tokens of a text, without special tokens. -/
  tokens : String → Except String (List Token)
  /-- The post-processor, which adds the special tokens. -/
  postProcess : List Token → Encoding
  /-- `added_tokens(false)` of the post-processor, or zero without one. -/
  addedTokens : Nat
  truncation : Option TruncationParams
  padding : Option PaddingParams

/-- `Tokenizer::with_truncation`. -/
def Tokenizer.withTruncation (crate : TokenizersCrate) (tokenizer : Tokenizer)
    (params : TruncationParams) : Except String Tokenizer :=
  if crate.acceptsTruncation params tokenizer.addedTokens then
    .ok { tokenizer with truncation := some params }
  else .error "stride"

/-- The declared truncation of the tokens of a text. -/
def Tokenizer.keptTokens (crate : TokenizersCrate) (tokenizer : Tokenizer) (tokens : List Token) :
    Except String (List Token) :=
  match tokenizer.truncation with
  | none => .ok tokens
  | some params => crate.truncate params tokenizer.addedTokens tokens

/-- The declared padding of an encoding. -/
def Tokenizer.padded (crate : TokenizersCrate) (tokenizer : Tokenizer) (encoding : Encoding) :
    Encoding :=
  match tokenizer.padding with
  | none => encoding
  | some params => crate.pad params encoding

/-- `Tokenizer::encode` with special tokens. -/
def Tokenizer.encode (crate : TokenizersCrate) (tokenizer : Tokenizer) (text : String) :
    Except String Encoding := do
  let tokens ← tokenizer.tokens text
  let kept ← tokenizer.keptTokens crate tokens
  .ok (tokenizer.padded crate (tokenizer.postProcess kept))

/-! ## Failures -/

/-- `private_error`. -/
def privateError (code : ErrorCode) (operation error : String) : EngineFailure :=
  ⟨PublicError.forCode code, some (operation ++ " failed: " ++ error)⟩

/-- `inference_error`. -/
def inferenceError (error : String) : EngineFailure :=
  privateError .inferenceFailed "ONNX inference" error

/-- `map_err` on a result of another crate. -/
def mapFailure {α : Type} (failure : String → EngineFailure) : Except String α →
    Except EngineFailure α
  | .ok value => .ok value
  | .error error => .error (failure error)

/-! ## The loaded model -/

/-- `OnnxContract`. -/
structure OnnxContract where
  inputs : OnnxInputNames
  output : String
  padTokenId : UInt32
  normalize : Bool
  deriving DecidableEq, Repr

/-- An output tensor of element type `f32`. -/
structure OutputTensor where
  shape : List Nat
  value : List Nat → F32

/-- The inputs of one run: tensors of shape `[batch, sequence]` by name. -/
structure SessionInputs where
  batch : Nat
  sequence : Nat
  tensors : List (String × List Int)

/-- `Session::run` followed by the lookup and extraction of one output by name. -/
abbrev Session := SessionInputs → Except String (String → Option OutputTensor)

/-- `LoadedModel`, without the session and the lease. -/
structure LoadedModel where
  manifest : Manifest
  contract : OnnxContract
  tokenizer : Tokenizer
  truncatingTokenizer : Tokenizer
  identity : ResolvedModelIdentity

/-- `manifest.tokenizer.max_tokens`, which fits in a `usize`. -/
def LoadedModel.maxTokens (model : LoadedModel) : Nat := model.manifest.tokenizer.maxTokens.toNat

/-- `manifest.dimensions.native`, which fits in a `usize`. -/
def LoadedModel.native (model : LoadedModel) : Nat := model.manifest.dimensions.native.toNat

/-- The truncation that `load_candidate` sets. -/
def engineTruncation (maxTokens : Nat) : TruncationParams :=
  ⟨maxTokens, .longestFirst, 0, .right⟩

/-- The part of `load_candidate` that prepares the two tokenizers. -/
def loadTokenizers (crate : TokenizersCrate) (tokenizer : Tokenizer) (maxTokens : Nat) :
    Except EngineFailure (Tokenizer × Tokenizer) :=
  if maxTokens < tokenizer.addedTokens then .error (.public .invalidRequest)
  else do
    let truncating ← mapFailure (privateError .modelUnavailable "tokenizer truncation")
      (tokenizer.withTruncation crate (engineTruncation maxTokens))
    .ok (tokenizer, truncating)

/-- The model has the tokenizers that `load_candidate` prepared out of the given one, and a
manifest that passed validation. -/
structure LoadedModel.LoadedFrom (ext : External) (crate : TokenizersCrate) (model : LoadedModel)
    (tokenizer : Tokenizer) : Prop where
  valid : model.manifest.validate ext = .ok ()
  tokenizers : loadTokenizers crate tokenizer model.maxTokens =
    .ok (model.tokenizer, model.truncatingTokenizer)

/-- `LoadedModel::prefix_for`. -/
def LoadedModel.prefixFor (model : LoadedModel) (task : EmbeddingTask) : Option String :=
  let text := match task with
    | .query => model.manifest.prefixes.query
    | .document => model.manifest.prefixes.document
  if text.isEmpty then none else some text

/-- `apply_prefix`. -/
def applyPrefix (input : String) : Option String → String
  | none => input
  | some start =>
      if input.toList.take start.length = start.toList then input else start ++ input

/-- The text of an input as the engine tokenizes it. -/
def LoadedModel.prepare (model : LoadedModel) (task : EmbeddingTask) (input : String) : String :=
  applyPrefix input (model.prefixFor task)

/-- The tokenizer that `encode` uses under a policy. -/
def LoadedModel.tokenizerFor (model : LoadedModel) : Truncation → Tokenizer
  | .reject => model.tokenizer
  | .truncate => model.truncatingTokenizer

/-- `LoadedModel::encode`. -/
def LoadedModel.encode (crate : TokenizersCrate) (model : LoadedModel) (text : String)
    (truncation : Truncation) : Except EngineFailure Encoding := do
  let encoding ← mapFailure (privateError .invalidRequest "tokenization")
    ((model.tokenizerFor truncation).encode crate text)
  if model.maxTokens < encoding.length then .error (.public .invalidRequest) else .ok encoding

/-- `validate_dimensions`. -/
def validateDimensions (manifest : Manifest) (requested : Option Nat) :
    Except EngineFailure Unit :=
  let refused := requested.any fun dimension =>
    let requested := if dimension < 2 ^ 32 then dimension else 2 ^ 32 - 1
    requested ≠ manifest.dimensions.native.toNat &&
      !(manifest.dimensions.matryoshka.map UInt32.toNat).contains requested
  if refused then .error (.public .invalidRequest) else .ok ()

/-- The loop of `preflight_with_options`, with the totals so far. -/
def preflightFrom (crate : TokenizersCrate) (model : LoadedModel) (options : EmbedOptions) :
    Nat → Nat → List String → Except EngineFailure (Nat × Nat)
  | tokens, maxSequenceLength, [] => .ok (tokens, maxSequenceLength)
  | tokens, maxSequenceLength, text :: rest => do
      let encoding ← model.encode crate (model.prepare options.task text) options.truncation
      let length := max encoding.length 1
      if model.maxTokens < length then .error (.public .invalidRequest)
      else
        match Checked.add wordBits tokens length with
        | none => .error (.public .invalidRequest)
        | some tokens =>
            preflightFrom crate model options tokens (max maxSequenceLength length) rest

/-- `OnnxEmbeddingEngine::preflight_with_options` on the loaded model. -/
def preflightWithOptions (crate : TokenizersCrate) (model : LoadedModel)
    (requested : RequestedModel) (batch : EmbeddingBatch) (options : EmbedOptions) :
    Except EngineFailure EmbeddingBatchCost :=
  if requested.name ≠ model.manifest.canonicalId then .error (.public .modelUnavailable)
  else do
    validateDimensions model.manifest options.dimensions
    let (tokens, maxSequenceLength) ← preflightFrom crate model options 0 0 batch.inputs
    EmbeddingBatchCost.new batch.inputs.length tokens maxSequenceLength

/-! ## Inference -/

/-- The row of a padded tensor: the values of the encoding, then the filler. -/
def paddedRow (sequence : Nat) (filler : Int) (value : Token → Int) (encoding : Encoding) :
    List Int :=
  encoding.map value ++ List.replicate (sequence - encoding.length) filler

/-- A padded tensor, row after row. -/
def paddedTensor (sequence : Nat) (filler : Int) (value : Token → Int)
    (encodings : List Encoding) : List Int :=
  encodings.flatMap (paddedRow sequence filler value)

/-- The longest encoding, at least one position. -/
def sequenceLength (encodings : List Encoding) : Nat :=
  max ((encodings.map List.length).foldr max 0) 1

/-- The named tensors of one run. -/
def sessionInputs (model : LoadedModel) (encodings : List Encoding) : SessionInputs :=
  let sequence := sequenceLength encodings
  let names := model.contract.inputs
  let tensor := fun filler value => paddedTensor sequence filler value encodings
  { batch := encodings.length
    sequence := sequence
    tensors :=
      [(names.inputIds, tensor model.contract.padTokenId.toNat fun token => token.id.toNat)] ++
        (names.attentionMask.map fun name =>
          (name, tensor 0 fun token => token.attentionMask.toNat)).toList ++
        (names.tokenTypeIds.map fun name =>
          (name, tensor 0 fun token => token.typeId.toNat)).toList }

/-- `valid_runtime_output_shape`. -/
def validRuntimeOutputShape (shape : List Nat) (batch sequence native : Nat) : Bool :=
  shape = [batch, native] || shape = [batch, sequence, native]

/-- The positions `pool_tokens` reads: those whose mask is not zero. -/
def unmasked (mask : List Int) : List Nat :=
  (List.range mask.length).filter fun index => mask.getD index 0 ≠ 0

/-- `pool_tokens`. -/
def poolTokens (output : OutputTensor) (row hidden : Nat) (mask : List Int) (pooling : Pooling) :
    Except EngineFailure (List F32) :=
  match unmasked mask with
  | [] => .error (.public .inferenceFailed)
  | first :: rest =>
      let indices := first :: rest
      .ok <| (List.range hidden).map fun d =>
        match pooling with
        | .cls => output.value [row, first, d]
        | .lastToken => output.value [row, indices.getLast (List.cons_ne_nil _ _), d]
        | .mean =>
            let (sum, count) := indices.foldl
              (fun acc token => (acc.1.add (output.value [row, token, d]), acc.2.add F32.one))
              (F32.zero, F32.zero)
            sum.div count

/-- The sum of the squares that `l2_normalize` compares with its threshold. -/
def squaredNorm (vector : List F32) : F32 :=
  F32.sum (vector.map fun v => v.mul v)

/-- `l2_normalize`. -/
def l2Normalize (vector : List F32) : Except EngineFailure (List F32) :=
  if !(squaredNorm vector).isFinite || (squaredNorm vector).le F32.epsilon then
    .error (.public .inferenceFailed)
  else .ok (vector.map fun v => v.div (squaredNorm vector).sqrt)

/-- Matryoshka truncation to the requested width. -/
def truncateVector (dimensions : Option Nat) (vector : List F32) :
    Except EngineFailure (List F32) :=
  match dimensions with
  | none => .ok vector
  | some d => if vector.length < d then .error (.public .inferenceFailed) else .ok (vector.take d)

/-- The vector of one row before it is finished: the row itself, or its pooled tokens. -/
def rawVector (model : LoadedModel) (output : OutputTensor) (sequence : Nat) (row : Nat)
    (encoding : Encoding) : Except EngineFailure (List F32) :=
  if output.shape.length = 2 then
    .ok ((List.range model.native).map fun c => output.value [row, c])
  else
    poolTokens output row model.native
      (paddedRow sequence 0 (fun token => token.attentionMask.toNat) encoding)
      model.manifest.pooling

/-- The last loop of `run` on one vector. -/
def finishVector (dimensions : Option Nat) (normalize : Bool) (vector : List F32) :
    Except EngineFailure (List F32) :=
  if !vector.all F32.isFinite then .error (.public .inferenceFailed)
  else do
    let cut ← truncateVector dimensions vector
    if normalize then l2Normalize cut else .ok cut

/-- `LoadedModel::run`. -/
def LoadedModel.run (model : LoadedModel) (session : Session) (encodings : List Encoding)
    (dimensions : Option Nat) (normalize : Bool) : Except EngineFailure (List (List F32)) :=
  let batch := encodings.length
  let sequence := sequenceLength encodings
  match Checked.mul wordBits batch sequence with
  | none => .error (.public .invalidRequest)
  | some _ => do
      let outputs ← mapFailure inferenceError (session (sessionInputs model encodings))
      match outputs model.contract.output with
      | none => .error (.public .inferenceFailed)
      | some output =>
          if !validRuntimeOutputShape output.shape batch sequence model.native then
            .error (.public .inferenceFailed)
          else do
            let vectors ← encodings.zipIdx.mapM fun pair =>
              rawVector model output sequence pair.2 pair.1
            vectors.mapM (finishVector dimensions normalize)

/-- The encodings of a batch. -/
def LoadedModel.encodeBatch (crate : TokenizersCrate) (model : LoadedModel)
    (options : EmbedOptions) (inputs : List String) : Except EngineFailure (List Encoding) :=
  inputs.mapM fun text =>
    model.encode crate (model.prepare options.task text) options.truncation

/-- `OnnxEmbeddingEngine::embed_with_options` on the loaded model. The three checks of the
control observe the first three moments. -/
def embedWithOptions (crate : TokenizersCrate) (model : LoadedModel) (session : Session)
    (requested : RequestedModel) (batch : EmbeddingBatch) (control : ExecutionControl)
    (options : EmbedOptions) (moments : Nat → Moment) : Except EngineFailure EmbeddingOutput := do
  control.ensureActive (moments 0)
  if requested.name ≠ model.manifest.canonicalId then .error (.public .modelUnavailable)
  else do
    validateDimensions model.manifest options.dimensions
    let encodings ← model.encodeBatch crate options batch.inputs
    let usage ← EmbeddingUsage.new (encodings.map List.length)
    control.ensureActive (moments 1)
    let normalize := options.normalize.getD model.contract.normalize
    let vectors ← model.run session encodings options.dimensions normalize
    control.ensureActive (moments 2)
    .ok ⟨vectors, model.identity, usage⟩

end EmbeddingServer
