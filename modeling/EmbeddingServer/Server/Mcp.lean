import EmbeddingServer.Core.Contract
import EmbeddingServer.Lib.Serde

/-!
# The MCP dispatcher

A frame is one JSON value: a batch if it is an array, else a single item. The envelope of an
item is decoded by `deriveStruct`, like the parameters of the methods. The phase of a session
is changed by two handlers, `initialize` and `initialized`; a batch answers `initialize` without
calling it.

The JSON reader, which gives nothing for malformed bytes, and the two tools are parameters.
The JSON text of the replies is left out.
-/

namespace EmbeddingServer.Mcp

open Serde

/-- `Phase`. -/
inductive Phase where
  | awaitInitialize
  | awaitInitialized
  | ready
  | stateless
  deriving DecidableEq, Repr

/-- `RpcFailure`. -/
structure RpcFailure where
  code : Int
  message : String
  deriving DecidableEq, Repr

/-- `RpcFailure::invalid_params`. -/
def RpcFailure.invalidParams : RpcFailure :=
  ⟨-32602, "Invalid params"⟩

/-- The failure with which an envelope, or an `initialize` out of place, is refused. -/
def RpcFailure.invalidRequest : RpcFailure :=
  ⟨-32600, "Invalid Request"⟩

/-- The failure of a tool method before the handshake is done. -/
def RpcFailure.notInitialized : RpcFailure :=
  ⟨-32002, "Server not initialized"⟩

/-- The results of the methods. -/
inductive RpcResult where
  /-- The capabilities and the version of the server. -/
  | initialized
  | empty
  /-- The two tool descriptions. -/
  | tools
  | toolOutput (value : Value)

/-- A response object: `rpc_success` or `rpc_error`. -/
structure RpcResponse where
  id : Value
  result : Except RpcFailure RpcResult

/-- What `call_tool` reaches: the tools on their arguments. -/
structure Tools where
  embed : Option Value → Except RpcFailure Value
  listModels : Option Value → Except RpcFailure Value

/-! ## Envelopes -/

/-- `Incoming`. -/
structure Incoming where
  id : Option Value
  method : String
  params : Option Value

/-- The fields of `IncomingEnvelope`. -/
def envelopeFields : List Field :=
  [⟨"jsonrpc", false⟩, ⟨"id", true⟩, ⟨"method", false⟩, ⟨"params", true⟩]

/-- `valid_id`. -/
def validId : Value → Bool
  | .string _ => true
  | .number (.unsigned _) => true
  | .number (.negative _) => true
  | _ => false

/-- `WireItem::into_incoming`: nothing for the variant `Invalid` and for a refused envelope. -/
def intoIncoming (item : Value) : Option Incoming :=
  match deriveStruct envelopeFields item with
  | some [some (.string jsonrpc), id, some (.string method), params] =>
      let id := id.map Value.collapse
      if jsonrpc ≠ "2.0" || method.isEmpty || id.any fun value => !validId value then none
      else some ⟨id, method, params.map Value.collapse⟩
  | _ => none

/-! ## Parameters -/

/-- `ClientInfo`. -/
structure ClientInfo where
  name : String
  version : String
  title : Option String

/-- The derived decoding of `ClientInfo`. -/
def ClientInfo.decode (value : Value) : Option ClientInfo :=
  match deriveStruct [⟨"name", false⟩, ⟨"version", false⟩, ⟨"title", true⟩] value with
  | some [name, version, title] => do
      return ⟨← required Value.asString name, ← required Value.asString version,
        ← optionally Value.asString title⟩
  | _ => none

/-- `InitializeParams`. -/
structure InitializeParams where
  protocolVersion : String
  capabilities : List (String × Value)
  clientInfo : ClientInfo
  extra : Option (List (String × Value))

/-- The derived decoding of `InitializeParams`. -/
def InitializeParams.decode (value : Value) : Option InitializeParams :=
  match deriveStruct [⟨"protocolVersion", false⟩, ⟨"capabilities", false⟩, ⟨"clientInfo", false⟩,
      ⟨"_meta", true⟩] value with
  | some [protocolVersion, capabilities, clientInfo, extra] => do
      return ⟨← required Value.asString protocolVersion, ← required Value.asMap capabilities,
        ← required ClientInfo.decode clientInfo, ← optionally Value.asMap extra⟩
  | _ => none

/-- `from_value::<EmptyParams>` succeeds. -/
def emptyParams (value : Value) : Bool :=
  match deriveStruct [⟨"_meta", true⟩] value with
  | some [extra] => (optionally Value.asMap extra).isSome
  | _ => false

/-- `parse_empty`. -/
def parseEmpty : Option Value → Except RpcFailure Unit
  | none => .ok ()
  | some value => if emptyParams value then .ok () else .error .invalidParams

/-- `list_tools`. -/
def listTools : Option Value → Except RpcFailure RpcResult
  | none => .ok .tools
  | some value =>
      match deriveStruct [⟨"cursor", true⟩, ⟨"_meta", true⟩] value with
      | some [cursor, extra] =>
          match optionally Value.asString cursor, optionally Value.asMap extra with
          | some none, some _ => .ok .tools
          | _, _ => .error .invalidParams
      | _ => .error .invalidParams

/-- `call_tool`. -/
def callTool (tools : Tools) : Option Value → Except RpcFailure RpcResult
  | none => .error .invalidParams
  | some value =>
      match deriveStruct [⟨"name", false⟩, ⟨"arguments", true⟩, ⟨"_meta", true⟩] value with
      | some [some (.string name), arguments, extra] =>
          -- `arguments` is an `Option<Value>`: null is the same as absent.
          let arguments := arguments.bind fun value =>
            match value with
            | .null => none
            | value => some value
          if (optionally Value.asMap extra).isNone then .error .invalidParams
          else if name = "embed" then (tools.embed arguments).map .toolOutput
          else if name = "list_models" then (tools.listModels arguments).map .toolOutput
          else .error .invalidParams
      | _ => .error .invalidParams

/-! ## Dispatch -/

/-- `ready`. -/
def Phase.isReady (phase : Phase) : Bool :=
  phase = .ready || phase = .stateless

/-- The parameters that `initialize` accepts. -/
def acceptsInitialize (params : Option Value) : Bool :=
  match params.bind InitializeParams.decode with
  | none => false
  | some params =>
      !(isBlank params.protocolVersion || isBlank params.clientInfo.name ||
        isBlank params.clientInfo.version)

/-- `McpDispatcher::initialize`. -/
def runInitialize (phase : Phase) (params : Option Value) : Phase × Except RpcFailure RpcResult :=
  if !(phase = .awaitInitialize || phase = .stateless) then (phase, .error .invalidRequest)
  else if !acceptsInitialize params then (phase, .error .invalidParams)
  else (if phase = .awaitInitialize then .awaitInitialized else phase, .ok .initialized)

/-- `McpDispatcher::initialized`. -/
def initialized (phase : Phase) (params : Option Value) : Phase :=
  if (parseEmpty params).isOk && phase = .awaitInitialized then .ready else phase

/-- `dispatch_incoming` on a request with the id: the phase and the result. -/
def dispatchRequest (tools : Tools) (phase : Phase) (method : String) (params : Option Value) :
    Phase × Except RpcFailure RpcResult :=
  match method with
  | "initialize" => runInitialize phase params
  | "ping" => (phase, (parseEmpty params).map fun _ => .empty)
  | "tools/list" => (phase, if phase.isReady then listTools params else .error .notInitialized)
  | "tools/call" =>
      (phase, if phase.isReady then callTool tools params else .error .notInitialized)
  | _ => (phase, .error ⟨-32601, "Method not found"⟩)

/-- `dispatch_incoming`. -/
def dispatchIncoming (tools : Tools) (phase : Phase) (incoming : Incoming) :
    Phase × Option RpcResponse :=
  match incoming.id with
  | none =>
      (if incoming.method = "notifications/initialized" then initialized phase incoming.params
        else phase, none)
  | some id =>
      let (phase, result) := dispatchRequest tools phase incoming.method incoming.params
      (phase, some ⟨id, result⟩)

/-- One iteration of the loop over the items of a batch. -/
def dispatchBatchItem (tools : Tools) (phase : Phase) (item : Value) :
    Phase × Option RpcResponse :=
  match intoIncoming item with
  | none => (phase, some ⟨.null, .error .invalidRequest⟩)
  | some incoming =>
      if incoming.method = "initialize" then
        match incoming.id with
        | none => (phase, none)
        | some id => (phase, some ⟨id, .error .invalidRequest⟩)
      else dispatchIncoming tools phase incoming

/-- The loop over the items of a batch. -/
def dispatchBatch (tools : Tools) : Phase → List Value → Phase × List RpcResponse
  | phase, [] => (phase, [])
  | phase, item :: rest =>
      let (phase, response) := dispatchBatchItem tools phase item
      let (phase, responses) := dispatchBatch tools phase rest
      (phase, response.toList ++ responses)

/-- `DispatchResult`. -/
inductive DispatchResult where
  | response (response : RpcResponse)
  | batch (responses : List RpcResponse)
  | notification

/-- `MAX_BATCH_ITEMS`. -/
def maxBatchItems : Nat := 128

/-- `McpDispatcher::dispatch`, on what the JSON reader makes of the frame. -/
def dispatch (tools : Tools) (phase : Phase) (frame : Option Value) : Phase × DispatchResult :=
  match frame with
  | none => (phase, .response ⟨.null, .error ⟨-32700, "Parse error"⟩⟩)
  | some (.array items) =>
      if items.isEmpty then (phase, .response ⟨.null, .error .invalidRequest⟩)
      else if maxBatchItems < items.length then
        (phase, .response ⟨.null, .error .invalidRequest⟩)
      else
        let (phase, responses) := dispatchBatch tools phase items
        (phase, if responses.isEmpty then .notification else .batch responses)
  | some item =>
      match intoIncoming item with
      | none => (phase, .response ⟨.null, .error .invalidRequest⟩)
      | some incoming =>
          match dispatchIncoming tools phase incoming with
          | (phase, some response) => (phase, .response response)
          | (phase, none) => (phase, .notification)

end EmbeddingServer.Mcp
