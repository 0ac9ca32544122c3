import EmbeddingServer.Lib.SerdeText
import EmbeddingServer.Server.McpSession

/-!
# The replies of the MCP dispatcher

The values that `rpc_success`, `rpc_error` and the handlers build, and which requests a frame
makes. The responses to a frame carry the ids that it asks for, in order (`dispatch_ids`), and a
reply is a response or a batch of at most as many as a frame may have items.
-/

namespace EmbeddingServer.Mcp

open Serde

/-- `PROTOCOL_VERSION`. -/
def protocolVersion : String := "2025-03-26"

/-- The number of an error code. -/
def codeNumber (code : Int) : Number :=
  if code < 0 then .negative (Int64.ofInt code) else .unsigned (UInt64.ofNat code.toNat)

/-- `rpc_success`. -/
def rpcSuccess (id result : Value) : Value :=
  .object [("jsonrpc", .string "2.0"), ("id", id), ("result", result)]

/-- `rpc_error`. -/
def rpcError (id : Value) (failure : RpcFailure) : Value :=
  .object [("jsonrpc", .string "2.0"), ("id", id),
    ("error", .object [("code", .number (codeNumber failure.code)),
      ("message", .string failure.message)])]

/-- The result of `initialize`. -/
def initializeValue (version : String) : Value :=
  .object [("protocolVersion", .string protocolVersion),
    ("capabilities", .object [("tools", .object [("listChanged", .bool false)])]),
    ("serverInfo", .object [("name", .string "impossible-embedding"),
      ("version", .string version)]),
    ("instructions", .string
      "Local embedding inference and model discovery. No model administration is exposed.")]

/-- The annotations of both tools. -/
def toolAnnotations : Value :=
  .object [("readOnlyHint", .bool true), ("destructiveHint", .bool false),
    ("idempotentHint", .bool true), ("openWorldHint", .bool false)]

/-- The schema of a string with a default among the choices. -/
def choiceSchema (choices : List String) (default : String) : Value :=
  .object [("type", .string "string"), ("enum", .array (choices.map .string)),
    ("default", .string default)]

/-- The result of `list_tools`. -/
def toolsValue : Value :=
  .object [("tools", .array [
    .object [("name", .string "embed"),
      ("description", .string "Create dense embeddings with a locally loaded open model."),
      ("inputSchema", .object [("type", .string "object"), ("additionalProperties", .bool false),
        ("required", .array [.string "model", .string "input"]),
        ("properties", .object [
          ("model", .object [("type", .string "string"), ("minLength", .number (.unsigned 1))]),
          ("input", .object [("oneOf", .array [
            .object [("type", .string "string")],
            .object [("type", .string "array"), ("minItems", .number (.unsigned 1)),
              ("items", .object [("type", .string "string")])]])]),
          ("task", choiceSchema ["query", "document"] "document"),
          ("truncation", choiceSchema ["reject", "truncate"] "reject"),
          ("dimensions", .object [("type", .string "integer"), ("minimum", .number (.unsigned 1))]),
          ("normalize", .object [("type", .string "boolean")])])]),
      ("annotations", toolAnnotations)],
    .object [("name", .string "list_models"),
      ("description", .string
        "List local model availability without revealing paths or host details."),
      ("inputSchema", .object [("type", .string "object"), ("additionalProperties", .bool false)]),
      ("annotations", toolAnnotations)]])]

/-- The value of a result. -/
def RpcResult.value (version : String) : RpcResult → Value
  | .initialized => initializeValue version
  | .empty => .object []
  | .tools => toolsValue
  | .toolOutput value => value

/-- The value of a response. -/
def RpcResponse.value (version : String) (response : RpcResponse) : Value :=
  match response.result with
  | .ok result => rpcSuccess response.id (result.value version)
  | .error failure => rpcError response.id failure

/-- The value that is sent for a result. -/
def DispatchResult.value (version : String) : DispatchResult → Option Value
  | .response answer => some (answer.value version)
  | .batch answers => some (.array (answers.map (RpcResponse.value version)))
  | .notification => none

/-- The ids of the responses that a frame asks for: null for what is no valid request. -/
def requestedIds : Option Value → List Value
  | none => [.null]
  | some (.array items) =>
      if items.isEmpty || maxBatchItems < items.length then [.null] else items.filterMap itemId
  | some item => (itemId item).toList

/-- What is sent in reply: nothing without responses, else the response or a batch of them. -/
def IsReply (version : String) (responses : List RpcResponse) : Option Value → Prop
  | none => responses = []
  | some value =>
      (∃ response, responses = [response] ∧ value = response.value version) ∨
        (responses ≠ [] ∧ responses.length ≤ maxBatchItems ∧
          value = .array (responses.map (RpcResponse.value version)))

section

variable {tools : Tools} {phase : Phase}

/-- A frame that is not an array asks for the id of its item. -/
theorem requested_ids_single {item : Value} (h : ∀ items, item ≠ .array items) :
    requestedIds (some item) = (itemId item).toList := by
  unfold requestedIds
  split
  · rename_i hnone
    cases hnone
  · rename_i items hitems
    exact absurd (Option.some.inj hitems) (h items)
  · rename_i hsome
    cases hsome
    rfl

theorem requested_ids_batch (items : List Value) :
    requestedIds (some (.array items)) =
      if items.isEmpty || maxBatchItems < items.length then [.null] else items.filterMap itemId :=
  rfl

/-- A frame is answered by a response for each id it asks for. -/
theorem dispatch_ids (frame : Option Value) :
    (dispatch tools phase frame).2.responses.map RpcResponse.id = requestedIds frame := by
  rcases frame with _ | item
  · rfl
  · by_cases harray : ∃ items, item = .array items
    · obtain ⟨items, rfl⟩ := harray
      rw [requested_ids_batch]
      cases hbound : items.isEmpty || decide (maxBatchItems < items.length) with
      | true =>
          rw [dispatch_batch_refused hbound]
          rfl
      | false =>
          rw [if_neg Bool.false_ne_true, dispatch_batch hbound,
            ← @dispatch_batch_ids tools items phase]
          cases hanswers : (dispatchBatch tools phase items).2 with
          | nil => rfl
          | cons first rest => rfl
    · have hsingle : ∀ items, item ≠ .array items := fun items heq => harray ⟨items, heq⟩
      rw [dispatch_single hsingle, requested_ids_single hsingle]
      unfold itemId
      cases intoIncoming item with
      | none => rfl
      | some incoming =>
          show _ = incoming.id.toList
          rw [← @dispatch_incoming_id tools phase incoming]
          dsimp only
          cases (dispatchIncoming tools phase incoming).2 <;> rfl

/-- At most one response for each item. -/
theorem dispatch_responses_length (frame : Option Value) :
    (dispatch tools phase frame).2.responses.length ≤ maxBatchItems := by
  have hids : (dispatch tools phase frame).2.responses.length = (requestedIds frame).length := by
    rw [← dispatch_ids, List.length_map]
  rw [hids]
  have hone : 1 ≤ maxBatchItems := by decide
  rcases frame with _ | item
  · exact hone
  · by_cases harray : ∃ items, item = .array items
    · obtain ⟨items, rfl⟩ := harray
      rw [requested_ids_batch]
      split
      · exact hone
      · rename_i hbound
        rw [Bool.not_eq_true, Bool.or_eq_false_iff, decide_eq_false_iff_not] at hbound
        exact Nat.le_trans (List.length_filterMap_le _ _) (Nat.not_lt.mp hbound.2)
    · rw [requested_ids_single fun items heq => harray ⟨items, heq⟩]
      cases itemId item with
      | none => exact Nat.zero_le _
      | some _ => exact hone

/-- What is sent is a reply made of the responses. -/
theorem dispatch_reply (version : String) (frame : Option Value) :
    IsReply version (dispatch tools phase frame).2.responses
      ((dispatch tools phase frame).2.value version) := by
  have hlength := @dispatch_responses_length tools phase frame
  have hbatch : ∀ responses, (dispatch tools phase frame).2 = .batch responses →
    responses ≠ [] := by
    intro responses hresult hnil
    subst hnil
    rcases frame with _ | item
    · cases hresult
    · by_cases harray : ∃ items, item = .array items
      · obtain ⟨items, rfl⟩ := harray
        cases hbound : items.isEmpty || decide (maxBatchItems < items.length) with
        | true =>
            rw [dispatch_batch_refused hbound] at hresult
            cases hresult
        | false =>
            rw [dispatch_batch hbound] at hresult
            split at hresult
            · cases hresult
            · rename_i hempty
              rw [DispatchResult.batch.injEq] at hresult
              exact hempty (List.isEmpty_iff.mpr hresult)
      · rw [dispatch_single fun items heq => harray ⟨items, heq⟩] at hresult
        split at hresult
        · cases hresult
        · split at hresult <;> cases hresult
  cases hresult : (dispatch tools phase frame).2 with
  | response response => exact Or.inl ⟨response, rfl, rfl⟩
  | batch responses =>
      rw [hresult] at hlength
      exact Or.inr ⟨hbatch responses hresult, hlength, rfl⟩
  | notification => exact (rfl : DispatchResult.notification.responses = [])

end

end EmbeddingServer.Mcp
