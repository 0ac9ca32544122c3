import EmbeddingServer.Server.JsonBody
import EmbeddingServer.Server.Mcp

/-!
# Embedding requests over every transport

The two HTTP routes, the MCP tool and the gRPC service each decode a request into the same
`EmbedCommand` for the application. They check different things before: only the routes look at
the limits, and only the tool refuses zero dimensions and an empty list by itself. The
enumerations `Task` and `ToolTask`, and the two of truncation, are read as what they stand for.

`embed_requests` says which commands each of them can hand over, and that no JSON value means one
command here and another one there. The JSON reader is a parameter.
-/

namespace EmbeddingServer

open Serde Mcp

/-- `EmbedCommand`, without the token and the timeout of the request. -/
structure EmbedCommand where
  model : String
  input : List String
  options : EmbedOptions
  deriving DecidableEq, Repr

/-- `OpenAiInput` and `EmbedInput`. -/
inductive EmbedInput where
  | one (value : String)
  | many (values : List String)
  deriving DecidableEq, Repr

/-- The derived decoding of the untagged `EmbedInput`. -/
def EmbedInput.decode : Value → Option EmbedInput
  | .string value => some (.one value)
  | value => value.asStrings.map .many

/-- The inputs of either form. -/
def EmbedInput.inputs : EmbedInput → List String
  | .one value => [value]
  | .many values => values

/-- The variants of `Task` and `ToolTask`. -/
def taskVariants : List (String × EmbeddingTask) :=
  [("query", .query), ("document", .document)]

/-- The variants of `TruncationMode` and `ToolTruncation`. -/
def truncationVariants : List (String × Truncation) :=
  [("reject", .reject), ("truncate", .truncate)]

/-! ## The HTTP routes -/

/-- `OpenAiRequest`. -/
structure OpenAiRequest where
  model : String
  input : EmbedInput
  encodingFormat : Option Unit
  dimensions : Option Nat

/-- The fields of `OpenAiRequest`. -/
def openAiFields : List Field :=
  [⟨"model", false⟩, ⟨"input", false⟩, ⟨"encoding_format", true⟩, ⟨"dimensions", true⟩]

/-- The derived decoding of `OpenAiRequest`; `FloatEncoding` has one variant. -/
def OpenAiRequest.decode (value : Value) : Option OpenAiRequest :=
  match deriveStruct openAiFields value with
  | some [model, input, encodingFormat, dimensions] => do
      return ⟨← required Value.asString model, ← required EmbedInput.decode input,
        ← optionally (Value.asVariant [("float", ())]) encodingFormat,
        ← optionally (Value.asUnsigned 32) dimensions⟩
  | _ => none

/-- The command of `openai_embeddings`. A word has room for the dimensions. -/
def OpenAiRequest.command (limits : Limits) (request : OpenAiRequest) :
    Except ErrorResponse EmbedCommand := do
  validateInputs limits request.model request.input.inputs .compatibility
  return ⟨request.model, request.input.inputs,
    { EmbedOptions.default with dimensions := request.dimensions }⟩

/-- The record that `NativeRequest` and `EmbedArguments` are, but for the type of the input. -/
structure EmbedRecord (Input : Type) where
  model : String
  input : Input
  task : EmbeddingTask
  truncation : Truncation
  dimensions : Option Nat
  normalize : Option Bool

/-- The fields of `NativeRequest` and `EmbedArguments`. -/
def embedFields : List Field :=
  [⟨"model", false⟩, ⟨"input", false⟩, ⟨"task", true⟩, ⟨"truncation", true⟩,
    ⟨"dimensions", true⟩, ⟨"normalize", true⟩]

/-- The derived decoding of the record, with dimensions of so many bits. -/
def EmbedRecord.decode {Input : Type} (asInput : Value → Option Input) (bits : Nat)
    (value : Value) : Option (EmbedRecord Input) :=
  match deriveStruct embedFields value with
  | some [model, input, task, truncation, dimensions, normalize] => do
      return ⟨← required Value.asString model, ← required asInput input,
        ← defaulted .document (Value.asVariant taskVariants) task,
        ← defaulted .reject (Value.asVariant truncationVariants) truncation,
        ← optionally (Value.asUnsigned bits) dimensions, ← optionally Value.asBool normalize⟩
  | _ => none

/-- `NativeRequest`. -/
abbrev NativeRequest := EmbedRecord (List String)

/-- The derived decoding of `NativeRequest`. -/
def NativeRequest.decode : Value → Option NativeRequest :=
  EmbedRecord.decode Value.asStrings 32

/-- The command of `native_embeddings`. -/
def NativeRequest.command (limits : Limits) (request : NativeRequest) :
    Except ErrorResponse EmbedCommand := do
  validateInputs limits request.model request.input .native
  return ⟨request.model, request.input,
    ⟨request.task, request.truncation, request.dimensions, request.normalize⟩⟩

/-- `openai_embeddings` up to the call of the application. -/
def openAiCommand (read : List UInt8 → Option Value) (limits : Limits) (request : JsonRequest) :
    Except ErrorResponse EmbedCommand := do
  let request ← decodeJson read OpenAiRequest.decode limits request .compatibility
  request.command limits

/-- `native_embeddings` up to the call of the application. -/
def nativeCommand (read : List UInt8 → Option Value) (limits : Limits) (request : JsonRequest) :
    Except ErrorResponse EmbedCommand := do
  let request ← decodeJson read NativeRequest.decode limits request .native
  request.command limits

/-! ## The tool -/

/-- `EmbedArguments`. -/
abbrev EmbedArguments := EmbedRecord EmbedInput

/-- The derived decoding of `EmbedArguments`. -/
def EmbedArguments.decode : Value → Option EmbedArguments :=
  EmbedRecord.decode EmbedInput.decode 64

/-- The command of `McpDispatcher::embed`. -/
def EmbedArguments.command (arguments : EmbedArguments) : Except RpcFailure EmbedCommand :=
  if arguments.model.isEmpty then .error .invalidParams
  else
    match arguments.input with
    | .many [] => .error .invalidParams
    | input =>
        if arguments.dimensions = some 0 then .error .invalidParams
        else .ok ⟨arguments.model, input.inputs,
          ⟨arguments.task, arguments.truncation, arguments.dimensions, arguments.normalize⟩⟩

/-- `McpDispatcher::embed` up to the call of the application. -/
def toolCommand (arguments : Option Value) : Except RpcFailure EmbedCommand :=
  match EmbedArguments.decode (arguments.getD (.object [])) with
  | none => .error .invalidParams
  | some arguments => arguments.command

/-! ## The gRPC service -/

/-- `EmbedRequest` of the protocol. -/
structure EmbedRequest where
  model : String
  input : List String
  task : Int32
  truncation : Int32
  dimensions : Option UInt32
  normalize : Option Bool

/-- The task of a number, or of none given. -/
def protoTask (task : Int32) : Option EmbeddingTask :=
  if task = 0 ∨ task = 2 then some .document else if task = 1 then some .query else none

/-- The truncation of a number, or of none given. -/
def protoTruncation (truncation : Int32) : Option Truncation :=
  if truncation = 0 ∨ truncation = 1 then some .reject
  else if truncation = 2 then some .truncate else none

/-- `decode_options`. -/
def decodeOptions (request : EmbedRequest) : Except PublicError EmbedOptions :=
  match protoTask request.task, protoTruncation request.truncation with
  | some task, some truncation =>
      .ok ⟨task, truncation, request.dimensions.map UInt32.toNat, request.normalize⟩
  | _, _ => .error invalidRequestStatus

/-- `GrpcEmbeddingService::embed` from the message up to the call of the application. -/
def grpcCommand (request : EmbedRequest) : Except PublicError EmbedCommand := do
  let options ← decodeOptions request
  return ⟨request.model, request.input, options⟩

/-! ## What the decoders read -/

/-- An input is a string or a list of strings. -/
theorem embed_input_decode_iff {value : Value} {input : EmbedInput} :
    EmbedInput.decode value = some input ↔
      (∃ text, value = .string text ∧ input = .one text) ∨
        ∃ texts, value.asStrings = some texts ∧ input = .many texts := by
  cases value with
  | string text =>
      constructor
      · intro h
        cases h
        exact .inl ⟨text, rfl, rfl⟩
      · intro h
        rcases h with ⟨_, h, rfl⟩ | ⟨_, h, _⟩
        · cases h
          rfl
        · cases h
  | array items =>
      show (items.mapM Value.asString).map EmbedInput.many = _ ↔ _
      rw [Option.map_eq_some_iff]
      constructor
      · intro h
        obtain ⟨texts, htexts, hinput⟩ := h
        exact .inr ⟨texts, htexts, hinput.symm⟩
      · intro h
        rcases h with ⟨_, h, _⟩ | ⟨texts, htexts, hinput⟩
        · cases h
        · exact ⟨texts, htexts, hinput.symm⟩
  | null | bool _ | number _ | object _ =>
      constructor
      · intro h
        cases h
      · intro h
        rcases h with ⟨_, h, _⟩ | ⟨_, h, _⟩ <;> cases h

theorem embed_input_stable : Stable EmbedInput.decode := by
  intro value input h
  rcases embed_input_decode_iff.mp h with ⟨text, rfl, _⟩ | ⟨texts, htexts, hinput⟩
  · exact h
  · exact embed_input_decode_iff.mpr (.inr ⟨texts, as_strings_stable _ _ htexts, hinput⟩)

/-- What `OpenAiRequest` is read from. -/
theorem open_ai_decode_iff {value : Value} {request : OpenAiRequest} :
    OpenAiRequest.decode value = some request ↔ ∃ model input encodingFormat dimensions,
      deriveStruct openAiFields value = some [model, input, encodingFormat, dimensions] ∧
      required Value.asString model = some request.model ∧
      required EmbedInput.decode input = some request.input ∧
      optionally (Value.asVariant [("float", ())]) encodingFormat = some request.encodingFormat ∧
      optionally (Value.asUnsigned 32) dimensions = some request.dimensions := by
  unfold OpenAiRequest.decode
  constructor
  · intro h
    split at h
    · rename_i model input encodingFormat dimensions hfields
      simp only [Option.bind_eq_bind, Option.bind_eq_some_iff] at h
      obtain ⟨_, hmodel, _, hinput, _, hencoding, _, hdimensions, h⟩ := h
      cases h
      exact ⟨model, input, encodingFormat, dimensions, hfields, hmodel, hinput, hencoding,
        hdimensions⟩
    · cases h
  · intro h
    obtain ⟨model, input, encodingFormat, dimensions, hfields, hmodel, hinput, hencoding,
      hdimensions⟩ := h
    rw [hfields]
    dsimp only
    rw [hmodel, hinput, hencoding, hdimensions]
    rfl

/-- What an `EmbedRecord` is read from. -/
theorem record_decode_iff {Input : Type} {asInput : Value → Option Input} {bits : Nat}
    {value : Value} {record : EmbedRecord Input} :
    EmbedRecord.decode asInput bits value = some record ↔
      ∃ model input task truncation dimensions normalize,
      deriveStruct embedFields value =
        some [model, input, task, truncation, dimensions, normalize] ∧
      required Value.asString model = some record.model ∧
      required asInput input = some record.input ∧
      defaulted .document (Value.asVariant taskVariants) task = some record.task ∧
      defaulted .reject (Value.asVariant truncationVariants) truncation =
        some record.truncation ∧
      optionally (Value.asUnsigned bits) dimensions = some record.dimensions ∧
      optionally Value.asBool normalize = some record.normalize := by
  unfold EmbedRecord.decode
  constructor
  · intro h
    split at h
    · rename_i model input task truncation dimensions normalize hfields
      simp only [Option.bind_eq_bind, Option.bind_eq_some_iff] at h
      obtain ⟨_, hmodel, _, hinput, _, htask, _, htruncation, _, hdimensions, _, hnormalize, h⟩ := h
      cases h
      exact ⟨model, input, task, truncation, dimensions, normalize, hfields, hmodel, hinput, htask,
        htruncation, hdimensions, hnormalize⟩
    · cases h
  · intro h
    obtain ⟨model, input, task, truncation, dimensions, normalize, hfields, hmodel, hinput, htask,
      htruncation, hdimensions, hnormalize⟩ := h
    rw [hfields]
    dsimp only
    rw [hmodel, hinput, htask, htruncation, hdimensions, hnormalize]
    rfl

/-! ## One value for several decoders -/

theorem open_ai_stable : Stable OpenAiRequest.decode := by
  intro value request h
  obtain ⟨model, input, encodingFormat, dimensions, hfields, hmodel, hinput, hencoding,
    hdimensions⟩ := open_ai_decode_iff.mp h
  exact open_ai_decode_iff.mpr ⟨_, _, _, _, derive_struct_collapse hfields,
    required_collapse as_string_stable hmodel, required_collapse embed_input_stable hinput,
    optionally_collapse (as_variant_stable _) rfl hencoding,
    optionally_collapse (as_unsigned_stable 32) rfl hdimensions⟩

theorem record_stable {Input : Type} {asInput : Value → Option Input} (hinput : Stable asInput)
    (bits : Nat) : Stable (EmbedRecord.decode asInput bits) := by
  intro value record h
  obtain ⟨model, input, task, truncation, dimensions, normalize, hfields, hmodel, hgiven, htask,
    htruncation, hdimensions, hnormalize⟩ := record_decode_iff.mp h
  exact record_decode_iff.mpr ⟨_, _, _, _, _, _, derive_struct_collapse hfields,
    required_collapse as_string_stable hmodel, required_collapse hinput hgiven,
    defaulted_collapse (as_variant_stable _) htask,
    defaulted_collapse (as_variant_stable _) htruncation,
    optionally_collapse (as_unsigned_stable bits) rfl hdimensions,
    optionally_collapse as_bool_stable rfl hnormalize⟩

/-- The arguments that a native request is. -/
def EmbedRecord.toArguments (request : NativeRequest) : EmbedArguments :=
  ⟨request.model, .many request.input, request.task, request.truncation, request.dimensions,
    request.normalize⟩

/-- A value that is a native request is the arguments of the tool as well. -/
theorem native_as_arguments {value : Value} {request : NativeRequest}
    (h : NativeRequest.decode value = some request) :
    EmbedArguments.decode value = some request.toArguments := by
  obtain ⟨model, input, task, truncation, dimensions, normalize, hfields, hmodel, hinput, htask,
    htruncation, hdimensions, hnormalize⟩ := record_decode_iff.mp h
  refine record_decode_iff.mpr ⟨model, input, task, truncation, dimensions, normalize, hfields,
    hmodel, ?_, htask, htruncation, ?_, hnormalize⟩
  · obtain ⟨given, rfl, hgiven⟩ := Option.bind_eq_some_iff.mp hinput
    exact embed_input_decode_iff.mpr (.inr ⟨_, hgiven, rfl⟩)
  · exact optionally_mono (fun _ _ => as_unsigned_mono (by omega)) hdimensions

/-- The members of an object by the fields of a record. -/
theorem object_fields {fields : List Field} {members : List (String × Value)}
    {values : List (Option Value)} (h : deriveStruct fields (.object members) = some values) :
    (∀ entry ∈ members, entry.1 ∈ fields.map Field.name) ∧
      values = fields.map fun field => member members field.name := by
  obtain ⟨⟨_, hknown⟩, hvalues⟩ := derive_struct_object_eq_some.mp h
  exact ⟨hknown, map_m_named_eq hvalues⟩

/-- The encoding format is no task. -/
theorem encoding_not_task {value : Value} {format : Option Unit} {task : EmbeddingTask}
    (hformat : optionally (Value.asVariant [("float", ())]) (some value) = some format) :
    Value.asVariant taskVariants value ≠ some task := by
  intro htask
  obtain ⟨name, hvalue, hname⟩ := as_variant_eq_some.mp htask
  have hnotFloat : name ≠ "float" := by
    rintro rfl
    have hfloat : member taskVariants "float" = none := by decide
    rw [hfloat] at hname
    cases hname
  rcases optionally_eq_some.mp hformat with ⟨habsent | hnull, _⟩ | ⟨given, _, hgiven, _, hread, _⟩
  · cases habsent
  · rcases hvalue with rfl | rfl <;> cases hnull
  · cases hgiven
    obtain ⟨other, hother, hmember⟩ := as_variant_eq_some.mp hread
    have hsame : other = name := by
      rcases hvalue with rfl | rfl <;> rcases hother with hother | hother <;> cases hother <;> rfl
    unfold member at hmember
    rw [hsame, List.find?_cons_of_neg (by simp [Ne.symm hnotFloat])] at hmember
    cases hmember

/-- The arguments that an OpenAI request is. -/
def OpenAiRequest.toArguments (request : OpenAiRequest) : EmbedArguments :=
  ⟨request.model, request.input, .document, .reject, request.dimensions, none⟩

/-- A value that is both an OpenAI request and arguments of the tool says the same in both. -/
theorem open_ai_arguments_agree {value : Value} {request : OpenAiRequest}
    {arguments : EmbedArguments} (h : OpenAiRequest.decode value = some request)
    (harguments : EmbedArguments.decode value = some arguments) :
    arguments = request.toArguments := by
  obtain ⟨model, input, format, dimensions, hfields, hmodel, hinput, hformat, hdimensions⟩ :=
    open_ai_decode_iff.mp h
  obtain ⟨model', input', task, truncation, dimensions', normalize, hfields', hmodel', hinput',
    htask, htruncation, hdimensions', hnormalize⟩ := record_decode_iff.mp harguments
  have hagree : model' = model ∧ input' = input ∧ task = none ∧ truncation = none ∧
      dimensions' = dimensions ∧ normalize = none := by
    cases value with
    | object members =>
        obtain ⟨hknown, hvalues⟩ := object_fields hfields
        obtain ⟨_, hvalues'⟩ := object_fields hfields'
        have hforeign := fun name => @member_eq_none _ _ _ name hknown
        simp only [openAiFields, embedFields, List.map_cons, List.map_nil, List.cons.injEq,
          and_true] at hvalues hvalues'
        obtain ⟨rfl, rfl, rfl, rfl⟩ := hvalues
        obtain ⟨rfl, rfl, rfl, rfl, rfl, rfl⟩ := hvalues'
        exact ⟨rfl, rfl, hforeign "task" (by decide), hforeign "truncation" (by decide), rfl,
          hforeign "normalize" (by decide)⟩
    | array items =>
        match items, hfields, hfields' with
        | [_, _], hfields, hfields' =>
            cases hfields
            cases hfields'
            exact ⟨rfl, rfl, rfl, rfl, rfl, rfl⟩
        | first :: second :: third :: rest, hfields, hfields' =>
            -- The third item is the encoding format here and the task there.
            obtain ⟨_, hvalues⟩ := positional_eq hfields
            obtain ⟨_, hvalues'⟩ := positional_eq hfields'
            simp only [List.map_cons, List.cons_append, List.cons.injEq] at hvalues hvalues'
            rw [hvalues.2.2.1] at hformat
            rw [hvalues'.2.2.1] at htask
            exact absurd htask (encoding_not_task hformat)
        | [], hfields, _ => cases hfields
        | [_], hfields, _ => cases hfields
    | null | bool _ | number _ | string _ => cases hfields
  obtain ⟨rfl, rfl, rfl, rfl, rfl, rfl⟩ := hagree
  have hwider := optionally_mono (fun _ _ => as_unsigned_mono (show 32 ≤ 64 by omega)) hdimensions
  obtain ⟨_, _, _, _, _, _⟩ := arguments
  cases hmodel.symm.trans hmodel'
  cases hinput.symm.trans hinput'
  cases hwider.symm.trans hdimensions'
  cases htask
  cases htruncation
  cases hnormalize
  rfl

/-- An object that is an OpenAI request without a format is arguments of the tool as well. -/
theorem open_ai_as_arguments {members : List (String × Value)} {request : OpenAiRequest}
    (h : OpenAiRequest.decode (.object members) = some request)
    (hformat : member members "encoding_format" = none) :
    EmbedArguments.decode (.object members) = some request.toArguments := by
  obtain ⟨model, input, format, dimensions, hfields, hmodel, hinput, _, hdimensions⟩ :=
    open_ai_decode_iff.mp h
  obtain ⟨hknown, hvalues⟩ := object_fields hfields
  obtain ⟨⟨hnodup, _⟩, _⟩ := derive_struct_object_eq_some.mp hfields
  have hforeign := fun name => @member_eq_none _ _ _ name hknown
  simp only [openAiFields, List.map_cons, List.map_nil, List.cons.injEq, and_true] at hvalues
  obtain ⟨rfl, rfl, rfl, rfl⟩ := hvalues
  have hwider := optionally_mono (fun _ _ => as_unsigned_mono (show 32 ≤ 64 by omega)) hdimensions
  have hnames : ∀ entry ∈ members, entry.1 ∈ embedFields.map Field.name := by
    intro entry hentry
    have hname := hknown entry hentry
    have hother : entry.1 ≠ "encoding_format" := fun hsame =>
      member_ne_none hentry (hsame ▸ hformat)
    simp only [openAiFields, embedFields, List.map_cons, List.map_nil, List.mem_cons,
      List.not_mem_nil, or_false] at hname ⊢
    tauto
  have hrequired : ∀ field ∈ embedFields, field.optional = true ∨
      member members field.name ≠ none := by
    have hgiven : member members "model" ≠ none ∧ member members "input" ≠ none := by
      constructor <;> intro hnone
      · rw [hnone] at hmodel
        cases hmodel
      · rw [hnone] at hinput
        cases hinput
    simp [embedFields, hgiven]
  refine record_decode_iff.mpr ⟨_, _, none, none, _, none, ?_, hmodel, hinput,
    rfl, rfl, hwider, rfl⟩
  refine derive_struct_object_eq_some.mpr ⟨⟨hnodup, hnames⟩, ?_⟩
  rw [map_m_named_of_required hrequired]
  simp [embedFields, hforeign "task" (by decide), hforeign "truncation" (by decide),
    hforeign "normalize" (by decide)]

/-- An object that is arguments of the tool has no encoding format. -/
theorem arguments_without_format {members : List (String × Value)} {arguments : EmbedArguments}
    (h : EmbedArguments.decode (.object members) = some arguments) :
    member members "encoding_format" = none := by
  obtain ⟨_, _, _, _, _, _, hfields, _⟩ := record_decode_iff.mp h
  exact member_eq_none (object_fields hfields).1 (by decide)

/-- The encoding format of an OpenAI request is a member of its map as well. -/
theorem open_ai_format_collapse {members : List (String × Value)} {request : OpenAiRequest}
    (h : OpenAiRequest.decode (.object members) = some request) :
    member (keepLast (collapseMembers members)) "encoding_format" =
      (member members "encoding_format").map Value.collapse := by
  obtain ⟨_, _, _, _, hfields, _⟩ := open_ai_decode_iff.mp h
  obtain ⟨⟨hnodup, _⟩, _⟩ := derive_struct_object_eq_some.mp hfields
  rw [keep_last_of_nodup (collapse_members_names members ▸ hnodup), member_collapse]

/-! ## The commands of each transport -/

/-- The dimensions that a command asks for, if any, fit in so many bits. -/
def EmbedCommand.Fits (command : EmbedCommand) (bits : Nat) : Prop :=
  ∀ dimensions, command.options.dimensions = some dimensions → dimensions < 2 ^ bits

/-- What the routes check of a command. -/
def EmbedCommand.Checked (command : EmbedCommand) (limits : Limits) : Prop :=
  command.model ≠ "" ∧ limits.Admits command.input ∧ command.Fits 32

/-- The HTTP route `/v1/embeddings` takes the value as the command. -/
def OpenAiTakes (limits : Limits) (value : Value) (command : EmbedCommand) : Prop :=
  ∃ request, OpenAiRequest.decode value = some request ∧ request.command limits = .ok command

/-- The HTTP route `/v1/embed` takes the value as the command. -/
def NativeTakes (limits : Limits) (value : Value) (command : EmbedCommand) : Prop :=
  ∃ request, NativeRequest.decode value = some request ∧
    NativeRequest.command limits request = .ok command

/-- Inputs pass the route only with a named model and within the limits. -/
theorem validate_inputs_ok_iff_checked {limits : Limits} {model : String} {inputs : List String}
    {flavor : ErrorFlavor} :
    validateInputs limits model inputs flavor = .ok () ↔ model ≠ "" ∧ limits.Admits inputs := by
  by_cases hmodel : model = ""
  · subst hmodel
    have hrefused : validateInputs limits "" inputs flavor =
        .error (errorResponse flavor badRequest .invalidRequest) := by
      unfold validateInputs
      exact if_pos (.inl rfl)
    rw [hrefused]
    constructor
    · intro h
      cases h
    · intro h
      exact absurd rfl h.1
  · rw [validate_inputs_ok_iff hmodel]
    exact ⟨fun h => ⟨hmodel, h⟩, And.right⟩

theorem open_ai_command_iff {limits : Limits} {request : OpenAiRequest} {command : EmbedCommand} :
    request.command limits = .ok command ↔
      (request.model ≠ "" ∧ limits.Admits request.input.inputs) ∧
        command = ⟨request.model, request.input.inputs,
          { EmbedOptions.default with dimensions := request.dimensions }⟩ := by
  unfold OpenAiRequest.command
  rw [Checked.bind_ok, ← @validate_inputs_ok_iff_checked _ _ _ .compatibility]
  constructor
  · intro h
    obtain ⟨_, hinputs, h⟩ := h
    cases h
    exact ⟨hinputs, rfl⟩
  · intro h
    obtain ⟨hinputs, rfl⟩ := h
    exact ⟨(), hinputs, rfl⟩

theorem native_command_iff {limits : Limits} {request : NativeRequest} {command : EmbedCommand} :
    NativeRequest.command limits request = .ok command ↔
      (request.model ≠ "" ∧ limits.Admits request.input) ∧
        command = ⟨request.model, request.input,
          ⟨request.task, request.truncation, request.dimensions, request.normalize⟩⟩ := by
  unfold NativeRequest.command
  rw [Checked.bind_ok, ← @validate_inputs_ok_iff_checked _ _ _ .native]
  constructor
  · intro h
    obtain ⟨_, hinputs, h⟩ := h
    cases h
    exact ⟨hinputs, rfl⟩
  · intro h
    obtain ⟨hinputs, rfl⟩ := h
    exact ⟨(), hinputs, rfl⟩

theorem arguments_command_iff {arguments : EmbedArguments} {command : EmbedCommand} :
    EmbedArguments.command arguments = .ok command ↔
      (arguments.model ≠ "" ∧ arguments.input.inputs ≠ [] ∧ arguments.dimensions ≠ some 0) ∧
        command = ⟨arguments.model, arguments.input.inputs,
          ⟨arguments.task, arguments.truncation, arguments.dimensions, arguments.normalize⟩⟩ := by
  unfold EmbedArguments.command
  rw [ne_eq, ← String.isEmpty_iff]
  split
  · rename_i hempty
    exact ⟨nofun, fun h => absurd hempty h.1.1⟩
  · rename_i hmodel
    split
    · rename_i hinput
      rw [hinput]
      exact ⟨nofun, fun h => absurd rfl h.1.2.1⟩
    · rename_i hinput
      have hinputs : arguments.input.inputs ≠ [] := by
        cases hgiven : arguments.input with
        | one text => exact List.cons_ne_nil _ _
        | many texts =>
            rintro rfl
            exact hinput hgiven
      split
      · rename_i hzero
        exact ⟨nofun, fun h => absurd hzero h.1.2.2⟩
      · rename_i hdimensions
        constructor
        · intro h
          cases h
          exact ⟨⟨hmodel, hinputs, hdimensions⟩, rfl⟩
        · intro h
          rw [h.2]

theorem as_strings_strings (texts : List String) :
    Value.asStrings (.array (texts.map .string)) = some texts := by
  show (texts.map Value.string).mapM Value.asString = some texts
  induction texts with
  | nil => rfl
  | cons text rest ih =>
      rw [List.map_cons, List.mapM_cons, ih]
      rfl

/-- A number, or null for none. -/
def dimensionsValue : Option Nat → Value
  | none => .null
  | some dimensions => .number (.unsigned (UInt64.ofNat dimensions))

theorem optionally_dimensions {bits : Nat} (hbits : bits ≤ 64) {dimensions : Option Nat}
    (h : ∀ number, dimensions = some number → number < 2 ^ bits) :
    optionally (Value.asUnsigned bits) (some (dimensionsValue dimensions)) = some dimensions := by
  cases dimensions with
  | none => rfl
  | some number =>
      have hnumber := h number rfl
      have hword : number < 2 ^ 64 :=
        Nat.lt_of_lt_of_le hnumber (Nat.pow_le_pow_right (by omega) hbits)
      show Option.map some (if (UInt64.ofNat number).toNat < 2 ^ bits then
        some (UInt64.ofNat number).toNat else none) = _
      rw [UInt64.toNat_ofNat', Nat.mod_eq_of_lt hword, if_pos hnumber]
      rfl

/-- A truth value, or null for none. -/
def normalizeValue : Option Bool → Value
  | none => .null
  | some normalize => .bool normalize

/-- The name of a task. -/
def taskName : EmbeddingTask → String
  | .query => "query"
  | .document => "document"

/-- The name of a truncation. -/
def truncationName : Truncation → String
  | .reject => "reject"
  | .truncate => "truncate"

/-- A JSON object for a command. -/
def EmbedCommand.value (command : EmbedCommand) : Value :=
  .object [("model", .string command.model), ("input", .array (command.input.map .string)),
    ("task", .string (taskName command.options.task)),
    ("truncation", .string (truncationName command.options.truncation)),
    ("dimensions", dimensionsValue command.options.dimensions),
    ("normalize", normalizeValue command.options.normalize)]

/-- The record for a command, of which the object is one spelling. -/
theorem record_decode_value {Input : Type} {asInput : Value → Option Input} {input : Input}
    {bits : Nat} (hbits : bits ≤ 64) {command : EmbedCommand} (hfits : command.Fits bits)
    (hinput : asInput (.array (command.input.map .string)) = some input) :
    EmbedRecord.decode asInput bits command.value = some ⟨command.model, input,
      command.options.task, command.options.truncation, command.options.dimensions,
      command.options.normalize⟩ := by
  refine record_decode_iff.mpr ⟨_, _, _, _, _, _, rfl, rfl, hinput, ?_, ?_,
    optionally_dimensions hbits hfits, ?_⟩
  · cases command.options.task <;> rfl
  · cases command.options.truncation <;> rfl
  · cases command.options.normalize <;> rfl

/-- A JSON object for a command that asks for nothing but dimensions. -/
def EmbedCommand.openAiValue (command : EmbedCommand) : Value :=
  .object [("model", .string command.model), ("input", .array (command.input.map .string)),
    ("dimensions", dimensionsValue command.options.dimensions)]

theorem open_ai_decode_value {command : EmbedCommand} (hfits : command.Fits 32) :
    OpenAiRequest.decode command.openAiValue = some ⟨command.model, .many command.input, none,
      command.options.dimensions⟩ :=
  open_ai_decode_iff.mpr ⟨_, _, _, _, rfl, rfl,
    embed_input_decode_iff.mpr (.inr ⟨_, as_strings_strings _, rfl⟩), rfl,
    optionally_dimensions (by omega) hfits⟩

theorem optionally_fits {field : Option Value} {bits : Nat} {dimensions : Option Nat}
    (h : optionally (Value.asUnsigned bits) field = some dimensions) :
    ∀ number, dimensions = some number → number < 2 ^ bits := by
  intro number hnumber
  rcases optionally_eq_some.mp h with ⟨_, hnone⟩ | ⟨_, decoded, _, _, hdecoded, hsome⟩
  · cases hnone.symm.trans hnumber
  · cases hsome.symm.trans hnumber
    exact as_unsigned_lt hdecoded

/-- The commands that `/v1/embed` takes. -/
theorem native_takes_iff {limits : Limits} {command : EmbedCommand} :
    (∃ value, NativeTakes limits value command) ↔ command.Checked limits := by
  constructor
  · intro h
    obtain ⟨value, request, hdecode, hcommand⟩ := h
    obtain ⟨_, _, _, _, _, _, _, _, _, _, _, hdimensions, _⟩ := record_decode_iff.mp hdecode
    obtain ⟨hchecked, rfl⟩ := native_command_iff.mp hcommand
    exact ⟨hchecked.1, hchecked.2, optionally_fits hdimensions⟩
  · intro h
    exact ⟨command.value, _, record_decode_value (by omega) h.2.2 (as_strings_strings _),
      native_command_iff.mpr ⟨⟨h.1, h.2.1⟩, rfl⟩⟩

/-- The commands that `/v1/embeddings` takes. -/
theorem open_ai_takes_iff {limits : Limits} {command : EmbedCommand} :
    (∃ value, OpenAiTakes limits value command) ↔ command.Checked limits ∧
      command.options = { EmbedOptions.default with dimensions := command.options.dimensions } := by
  constructor
  · intro h
    obtain ⟨value, request, hdecode, hcommand⟩ := h
    obtain ⟨_, _, _, _, _, _, _, _, hdimensions⟩ := open_ai_decode_iff.mp hdecode
    obtain ⟨hchecked, rfl⟩ := open_ai_command_iff.mp hcommand
    exact ⟨⟨hchecked.1, hchecked.2, optionally_fits hdimensions⟩, rfl⟩
  · intro h
    obtain ⟨hchecked, hoptions⟩ := h
    refine ⟨command.openAiValue, _, open_ai_decode_value hchecked.2.2,
      open_ai_command_iff.mpr ⟨⟨hchecked.1, hchecked.2.1⟩, ?_⟩⟩
    show command = ⟨command.model, command.input, _⟩
    rw [← hoptions]

/-- The commands that the tool takes. -/
theorem tool_takes_iff {command : EmbedCommand} :
    (∃ arguments, toolCommand arguments = .ok command) ↔ command.model ≠ "" ∧
      command.input ≠ [] ∧ command.Fits 64 ∧ command.options.dimensions ≠ some 0 := by
  constructor
  · intro h
    obtain ⟨arguments, h⟩ := h
    unfold toolCommand at h
    split at h
    · cases h
    · rename_i arguments hdecode
      obtain ⟨_, _, _, _, _, _, _, _, _, _, _, hdimensions, _⟩ := record_decode_iff.mp hdecode
      obtain ⟨⟨hmodel, hinput, hzero⟩, rfl⟩ := arguments_command_iff.mp h
      exact ⟨hmodel, hinput, optionally_fits hdimensions, hzero⟩
  · intro h
    obtain ⟨hmodel, hinput, hfits, hzero⟩ := h
    refine ⟨some command.value, ?_⟩
    have hmany := embed_input_decode_iff.mpr (.inr ⟨_, as_strings_strings command.input, rfl⟩)
    have hdecode := record_decode_value (by omega) hfits hmany
    unfold toolCommand
    rw [Option.getD_some, show EmbedArguments.decode command.value = _ from hdecode]
    exact arguments_command_iff.mpr ⟨⟨hmodel, hinput, hzero⟩, rfl⟩

/-- The commands that the gRPC service takes. -/
theorem grpc_takes_iff {command : EmbedCommand} :
    (∃ request, grpcCommand request = .ok command) ↔ command.Fits 32 := by
  constructor
  · intro h
    obtain ⟨request, h⟩ := h
    obtain ⟨options, hoptions, h⟩ := Checked.bind_ok.mp h
    cases h
    unfold decodeOptions at hoptions
    split at hoptions
    · cases hoptions
      intro dimensions hdimensions
      obtain ⟨number, _, rfl⟩ := Option.map_eq_some_iff.mp hdimensions
      exact number.toNat_lt
    · cases hoptions
  · intro h
    obtain ⟨model, input, ⟨task, truncation, dimensions, normalize⟩⟩ := command
    have hdimensions : (dimensions.map UInt32.ofNat).map UInt32.toNat = dimensions := by
      cases dimensions with
      | none => rfl
      | some number =>
          have hnumber : number < 2 ^ 32 := h number rfl
          show some (UInt32.ofNat number).toNat = some number
          rw [UInt32.toNat_ofNat', Nat.mod_eq_of_lt hnumber]
    refine ⟨⟨model, input, if task = .query then 1 else 2, if truncation = .truncate then 2 else 1,
      dimensions.map UInt32.ofNat, normalize⟩, ?_⟩
    refine Checked.bind_ok.mpr ⟨⟨task, truncation, dimensions, normalize⟩, ?_, rfl⟩
    unfold decodeOptions
    rw [hdimensions]
    cases task <;> cases truncation <;> rfl

/-! ## The routes on a request -/

section

variable {α : Type} {limits : Limits} {flavor : ErrorFlavor}

theorem validate_inputs_error {model : String} {inputs : List String} {response : ErrorResponse}
    (h : validateInputs limits model inputs flavor = .error response) :
    Refusal flavor response := by
  unfold validateInputs at h
  split at h
  · cases h
    exact ⟨badRequest, .inl rfl, rfl⟩
  · split at h
    · cases h
      exact ⟨payloadTooLarge, .inr (.inl rfl), rfl⟩
    · split at h
      · cases h
        exact ⟨payloadTooLarge, .inr (.inl rfl), rfl⟩
      · cases h

/-- What a route does with a request: it takes what it can read and refuses the rest. -/
theorem route_cases (read : List UInt8 → Option Value) (decode : Value → Option α)
    (limits : Limits) (request : JsonRequest) (flavor : ErrorFlavor)
    {commandOf : α → Except ErrorResponse EmbedCommand}
    (hrefused : ∀ record response, commandOf record = .error response →
      Refusal flavor response) :
    (∀ command, (decodeJson read decode limits request flavor >>= commandOf) = .ok command ↔
      request.Readable limits ∧ ∃ value, read request.body = some value ∧
        ∃ record, decode value = some record ∧ commandOf record = .ok command) ∧
    ∀ response, (decodeJson read decode limits request flavor >>= commandOf) = .error response →
      Refusal flavor response := by
  constructor
  · intro command
    rw [Checked.bind_ok]
    constructor
    · intro h
      obtain ⟨record, hrecord, hcommand⟩ := h
      obtain ⟨hreadable, value, hvalue, hdecode⟩ := decode_json_ok_iff.mp hrecord
      exact ⟨hreadable, value, hvalue, record, hdecode, hcommand⟩
    · intro h
      obtain ⟨hreadable, value, hvalue, record, hdecode, hcommand⟩ := h
      exact ⟨record, decode_json_ok_iff.mpr ⟨hreadable, value, hvalue, hdecode⟩, hcommand⟩
  · intro response h
    cases hrecord : decodeJson read decode limits request flavor with
    | error refused =>
        rw [hrecord] at h
        cases h
        exact decode_json_error hrecord
    | ok record =>
        rw [hrecord] at h
        exact hrefused record response h

theorem native_command_error {record : NativeRequest} {response : ErrorResponse}
    (h : NativeRequest.command limits record = .error response) : Refusal .native response := by
  unfold NativeRequest.command at h
  cases hinputs : validateInputs limits record.model record.input .native with
  | error refused =>
      rw [hinputs] at h
      cases h
      exact validate_inputs_error hinputs
  | ok _ =>
      rw [hinputs] at h
      cases h

theorem open_ai_command_error {record : OpenAiRequest} {response : ErrorResponse}
    (h : record.command limits = .error response) : Refusal .compatibility response := by
  unfold OpenAiRequest.command at h
  cases hinputs : validateInputs limits record.model record.input.inputs .compatibility with
  | error refused =>
      rw [hinputs] at h
      cases h
      exact validate_inputs_error hinputs
  | ok _ =>
      rw [hinputs] at h
      cases h

end

/-! ## All transports together -/

/-- The tool refuses arguments as invalid parameters. -/
theorem arguments_command_error {arguments : EmbedArguments} {failure : RpcFailure}
    (h : EmbedArguments.command arguments = .error failure) : failure = .invalidParams := by
  unfold EmbedArguments.command at h
  split at h
  · cases h
    rfl
  · cases hinput : arguments.input with
    | one text =>
        rw [hinput] at h
        change (if _ then _ else _) = Except.error failure at h
        split at h <;> cases h
        rfl
    | many texts =>
        rw [hinput] at h
        cases texts with
        | nil =>
            cases h
            rfl
        | cons text rest =>
            change (if _ then _ else _) = Except.error failure at h
            split at h <;> cases h
            rfl

/-- The tool on arguments that are the record of a checked command. -/
theorem tool_command_checked {value : Value} {arguments : EmbedArguments} {command : EmbedCommand}
    (hdecode : EmbedArguments.decode value = some arguments)
    (hchecked : arguments.model ≠ "" ∧ arguments.input.inputs ≠ [])
    (hcommand : command = ⟨arguments.model, arguments.input.inputs,
      ⟨arguments.task, arguments.truncation, arguments.dimensions, arguments.normalize⟩⟩) :
    toolCommand (some value) =
      if command.options.dimensions = some 0 then .error .invalidParams else .ok command := by
  subst hcommand
  unfold toolCommand
  rw [Option.getD_some, hdecode]
  dsimp only
  split
  · rename_i hzero
    cases hresult : arguments.command with
    | ok command => exact absurd hzero (arguments_command_iff.mp hresult).1.2.2
    | error failure => rw [arguments_command_error hresult]
  · rename_i hzero
    exact arguments_command_iff.mpr ⟨⟨hchecked.1, hchecked.2, hzero⟩, rfl⟩

/-- What `/v1/embed` takes, the tool takes to the same effect, but for zero dimensions. -/
theorem NativeTakes.tool {limits : Limits} {value : Value} {command : EmbedCommand}
    (h : NativeTakes limits value command) :
    toolCommand (some value.collapse) =
      if command.options.dimensions = some 0 then .error .invalidParams else .ok command := by
  obtain ⟨record, hdecode, hcommand⟩ := h
  obtain ⟨⟨hmodel, hadmits⟩, rfl⟩ := native_command_iff.mp hcommand
  have harguments := native_as_arguments (record_stable as_strings_stable 32 value record hdecode)
  exact tool_command_checked harguments ⟨hmodel, hadmits.1⟩ rfl

/-- What `/v1/embeddings` takes means the same to the tool. -/
theorem OpenAiTakes.agrees {limits : Limits} {value : Value} {command other : EmbedCommand}
    (h : OpenAiTakes limits value command)
    (htool : toolCommand (some value.collapse) = .ok other) : other = command := by
  obtain ⟨record, hdecode, hcommand⟩ := h
  obtain ⟨_, rfl⟩ := open_ai_command_iff.mp hcommand
  unfold toolCommand at htool
  rw [Option.getD_some] at htool
  split at htool
  · cases htool
  · rename_i arguments harguments
    obtain rfl := open_ai_arguments_agree (open_ai_stable value record hdecode) harguments
    exact (arguments_command_iff.mp htool).2

/-- What both routes take is the same to them. -/
theorem OpenAiTakes.native {limits : Limits} {value : Value} {command other : EmbedCommand}
    (h : OpenAiTakes limits value command) (hnative : NativeTakes limits value other) :
    other = command := by
  obtain ⟨record, hdecode, hcommand⟩ := h
  obtain ⟨_, rfl⟩ := open_ai_command_iff.mp hcommand
  obtain ⟨native, hdecode', hcommand'⟩ := hnative
  obtain ⟨_, rfl⟩ := native_command_iff.mp hcommand'
  have hagree := open_ai_arguments_agree hdecode (native_as_arguments hdecode')
  unfold EmbedRecord.toArguments OpenAiRequest.toArguments at hagree
  injection hagree with hmodel hinput htask htruncation hdimensions hnormalize
  rw [hmodel, ← hinput, htask, htruncation, hdimensions, hnormalize]
  rfl

/-- An object that `/v1/embeddings` takes, the tool takes as well, unless it names an encoding
format, which the tool refuses as an unknown field. -/
theorem OpenAiTakes.tool {limits : Limits} {members : List (String × Value)}
    {command : EmbedCommand} (h : OpenAiTakes limits (.object members) command) :
    toolCommand (some (Value.object members).collapse) =
      if member members "encoding_format" ≠ none ∨ command.options.dimensions = some 0 then
        .error .invalidParams
      else .ok command := by
  obtain ⟨record, hdecode, hcommand⟩ := h
  obtain ⟨⟨hmodel, hadmits⟩, rfl⟩ := open_ai_command_iff.mp hcommand
  by_cases hformat : member members "encoding_format" = none
  · have harguments :=
      record_stable embed_input_stable 64 _ _ (open_ai_as_arguments hdecode hformat)
    rw [tool_command_checked harguments ⟨hmodel, hadmits.1⟩ rfl]
    simp only [hformat, ne_eq, not_true_eq_false, false_or]
    rfl
  · rw [if_pos (.inl hformat)]
    -- The format is a member of the map as well, and no field of the arguments.
    have hunread : EmbedArguments.decode (Value.object members).collapse = none := by
      rw [Option.eq_none_iff_forall_ne_some]
      intro arguments harguments
      have hnone := arguments_without_format harguments
      rw [open_ai_format_collapse hdecode, Option.map_eq_none_iff] at hnone
      exact hformat hnone
    unfold toolCommand
    rw [Option.getD_some, hunread]

/-- Requests over every transport. A route takes a request exactly if it can be read and its value
taken, and refuses the others as invalid. No value means one command to one of the JSON adapters
and another to the next. The tool takes what `/v1/embed` takes, unless it asks for zero dimensions,
and the objects that `/v1/embeddings` takes, unless they do or name an encoding format.
Every transport can hand over the same commands, up to what it checks or cannot say: both routes
those within the limits, of 32-bit dimensions, the compatible one only with default options; the
tool those with a model, inputs and dimensions above zero, and gRPC all of 32-bit dimensions. -/
theorem embed_requests (read : List UInt8 → Option Value) (limits : Limits) :
    (∀ request,
      (∀ command, nativeCommand read limits request = .ok command ↔ request.Readable limits ∧
        ∃ value, read request.body = some value ∧ NativeTakes limits value command) ∧
      (∀ response, nativeCommand read limits request = .error response →
        Refusal .native response) ∧
      (∀ command, openAiCommand read limits request = .ok command ↔ request.Readable limits ∧
        ∃ value, read request.body = some value ∧ OpenAiTakes limits value command) ∧
      ∀ response, openAiCommand read limits request = .error response →
        Refusal .compatibility response) ∧
    (∀ value command, NativeTakes limits value command → toolCommand (some value.collapse) =
      if command.options.dimensions = some 0 then .error .invalidParams else .ok command) ∧
    (∀ members command, OpenAiTakes limits (.object members) command →
      toolCommand (some (Value.object members).collapse) =
        if member members "encoding_format" ≠ none ∨ command.options.dimensions = some 0 then
          .error .invalidParams
        else .ok command) ∧
    (∀ value command other, OpenAiTakes limits value command →
      (NativeTakes limits value other ∨ toolCommand (some value.collapse) = .ok other) →
      other = command) ∧
    ∀ command : EmbedCommand,
      ((∃ value, NativeTakes limits value command) ↔ command.Checked limits) ∧
      ((∃ value, OpenAiTakes limits value command) ↔ command.Checked limits ∧
        command.options =
          { EmbedOptions.default with dimensions := command.options.dimensions }) ∧
      ((∃ arguments, toolCommand arguments = .ok command) ↔ command.model ≠ "" ∧
        command.input ≠ [] ∧ command.Fits 64 ∧ command.options.dimensions ≠ some 0) ∧
      ((∃ request, grpcCommand request = .ok command) ↔ command.Fits 32) := by
  refine ⟨?_, fun _ _ h => h.tool, fun _ _ h => h.tool, ?_, ?_⟩
  · intro request
    have hnative := route_cases read NativeRequest.decode limits request .native
      fun record _ => @native_command_error limits record _
    have hopenAi := route_cases read OpenAiRequest.decode limits request .compatibility
      fun record _ => @open_ai_command_error limits record _
    exact ⟨hnative.1, hnative.2, hopenAi.1, hopenAi.2⟩
  · intro value command other h hother
    rcases hother with hnative | htool
    · exact h.native hnative
    · exact h.agrees htool
  · intro command
    exact ⟨native_takes_iff, open_ai_takes_iff, tool_takes_iff, grpc_takes_iff⟩

/-- A query in an object whose members are in another order, and whose task is spelled out. -/
def queryValue : Value :=
  .object [("input", .array [.string "a"]), ("task", .object [("query", .null)]),
    ("model", .string "m")]

/-- The tool takes the query that `/v1/embed` takes. -/
theorem embed_requests_query :
    NativeTakes .small queryValue ⟨"m", ["a"], ⟨.query, .reject, none, none⟩⟩ ∧
      toolCommand (some queryValue.collapse) = .ok ⟨"m", ["a"], ⟨.query, .reject, none, none⟩⟩ := by
  have hnative : NativeTakes .small queryValue ⟨"m", ["a"], ⟨.query, .reject, none, none⟩⟩ :=
    ⟨⟨"m", ["a"], .query, .reject, none, none⟩, rfl, rfl⟩
  exact ⟨hnative, (embed_requests (fun _ => none) .small).2.1 queryValue _ hnative⟩

end EmbeddingServer
