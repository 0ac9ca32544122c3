import EmbeddingServer.Server.McpGrammar
import Mathlib.Data.List.Induction

/-!
# Sessions of the MCP dispatcher

A session is a list of frames; what moves its phase are the items of the frames, in order. The
history of the phase is read off these items: a session is ready only after a single
`initialize` request that succeeded and, later, an `initialized` notification with acceptable
parameters.
-/

namespace EmbeddingServer.Mcp

open Serde

/-- An item of a session, and whether it came in a batch. -/
structure SessionItem where
  batch : Bool
  value : Value

/-- The items of a frame. -/
def sessionItems : Option Value → List SessionItem
  | none => []
  | some (.array items) => ((frameItems (.array items)).getD []).map (⟨true, ·⟩)
  | some value => [⟨false, value⟩]

/-- The dispatcher on one item. -/
def dispatchItem (tools : Tools) (phase : Phase) (item : SessionItem) :
    Phase × Option RpcResponse :=
  if item.batch then dispatchBatchItem tools phase item.value
  else
    match intoIncoming item.value with
    | none => (phase, some ⟨.null, .error .invalidRequest⟩)
    | some incoming => dispatchIncoming tools phase incoming

/-- The item is a request for the method. -/
def SessionItem.Requests (item : SessionItem) (method : String) (params : Option Value) : Prop :=
  ∃ id, intoIncoming item.value = some ⟨some id, method, params⟩

/-- The item is a notification of the method. -/
def SessionItem.Notifies (item : SessionItem) (method : String) (params : Option Value) : Prop :=
  intoIncoming item.value = some ⟨none, method, params⟩

/-- The phase after an item. -/
def nextPhase (phase : Phase) (item : SessionItem) : Phase :=
  match intoIncoming item.value with
  | none => phase
  | some ⟨some _, method, params⟩ =>
      if method = "initialize" && !item.batch then (runInitialize phase params).1 else phase
  | some ⟨none, method, params⟩ =>
      if method = "notifications/initialized" then initialized phase params else phase

/-- The phase after some items. -/
def phaseAfter (phase : Phase) (items : List SessionItem) : Phase :=
  items.foldl nextPhase phase

/-- The phase after the frames of a session; the tools may answer differently each time. -/
def session (phase : Phase) (frames : List (Tools × Option Value)) : Phase :=
  frames.foldl (fun phase frame => (dispatch frame.1 phase frame.2).1) phase

/-! ## The phase follows the items -/

section

variable {tools : Tools} {phase : Phase}

/-- Only `initialize` moves the phase of a request. -/
theorem dispatch_request_phase (method : String) (params : Option Value) :
    (dispatchRequest tools phase method params).1 =
      if method = "initialize" then (runInitialize phase params).1 else phase := by
  unfold dispatchRequest
  split
  · rfl
  · rfl
  · rfl
  · rfl
  · rename_i hne _ _ _
    rw [if_neg hne]

theorem dispatch_incoming_phase (incoming : Incoming) (value : Value)
    (h : intoIncoming value = some incoming) :
    (dispatchIncoming tools phase incoming).1 = nextPhase phase ⟨false, value⟩ := by
  obtain ⟨id, method, params⟩ := incoming
  unfold dispatchIncoming nextPhase
  rw [h]
  cases id with
  | none => rfl
  | some id => simpa using dispatch_request_phase method params

/-- In a batch only the notification moves the phase. -/
theorem dispatch_batch_item_phase (value : Value) :
    (dispatchBatchItem tools phase value).1 = nextPhase phase ⟨true, value⟩ := by
  unfold dispatchBatchItem
  cases hincoming : intoIncoming value with
  | none => simp [nextPhase, hincoming]
  | some incoming =>
      obtain ⟨id, method, params⟩ := incoming
      dsimp only
      by_cases hmethod : method = "initialize"
      · subst hmethod
        cases id <;> simp [nextPhase, hincoming]
      · rw [if_neg hmethod, dispatch_incoming_phase _ value hincoming]
        cases id <;> simp [nextPhase, hincoming, hmethod]

theorem dispatch_item_phase (item : SessionItem) :
    (dispatchItem tools phase item).1 = nextPhase phase item := by
  obtain ⟨batch, value⟩ := item
  cases batch with
  | true => exact dispatch_batch_item_phase value
  | false =>
      unfold dispatchItem
      cases hincoming : intoIncoming value with
      | none => simp [nextPhase, hincoming]
      | some incoming => simpa [hincoming] using dispatch_incoming_phase incoming value hincoming

theorem dispatch_batch_phase (items : List Value) :
    ∀ phase, (dispatchBatch tools phase items).1 = phaseAfter phase (items.map (⟨true, ·⟩)) := by
  induction items with
  | nil =>
      intro phase
      rfl
  | cons item rest ih =>
      intro phase
      show (dispatchBatch tools (dispatchBatchItem tools phase item).1 rest).1 = _
      rw [ih, dispatch_batch_item_phase]
      rfl

/-- A frame that is no array is one item. -/
theorem session_items_single {value : Value} (h : ∀ items, value ≠ .array items) :
    sessionItems (some value) = [⟨false, value⟩] := by
  cases value with
  | array items => exact absurd rfl (h items)
  | object | null | bool | number | string => rfl

/-- A frame moves the phase like its items. -/
theorem dispatch_phase (frame : Option Value) :
    (dispatch tools phase frame).1 = phaseAfter phase (sessionItems frame) := by
  unfold dispatch
  split
  · rfl
  · rename_i items
    unfold sessionItems frameItems
    dsimp only
    split
    · rename_i hempty
      simp [hempty, phaseAfter]
    · rename_i hnonempty
      split
      · rename_i hlong
        simp [hlong, phaseAfter]
      · rename_i hshort
        simpa [hnonempty, hshort] using dispatch_batch_phase items phase
  · rename_i value hsingle
    rw [session_items_single fun items h => hsingle items h]
    show _ = nextPhase phase ⟨false, value⟩
    rw [← @dispatch_item_phase tools phase ⟨false, value⟩]
    unfold dispatchItem
    cases intoIncoming value with
    | none => rfl
    | some incoming =>
        dsimp only
        rcases dispatchIncoming tools phase incoming with ⟨next, response⟩
        cases response <;> rfl

/-- A session moves the phase like the items of all its frames. -/
theorem session_phase (frames : List (Tools × Option Value)) :
    session phase frames = phaseAfter phase (frames.flatMap fun frame => sessionItems frame.2) := by
  induction frames generalizing phase with
  | nil => rfl
  | cons frame rest ih =>
      show session (dispatch frame.1 phase frame.2).1 rest = _
      rw [ih, dispatch_phase, List.flatMap_cons]
      exact (List.foldl_append ..).symm

end

/-! ## How the phase moves -/

/-- The item opens the session: a single `initialize` request with acceptable parameters. -/
def SessionItem.Opens (item : SessionItem) : Prop :=
  item.batch = false ∧
    ∃ params, item.Requests "initialize" params ∧ acceptsInitialize params = true

/-- The item completes the handshake: the notification with acceptable parameters. -/
def SessionItem.Completes (item : SessionItem) : Prop :=
  ∃ params, item.Notifies "notifications/initialized" params ∧ (parseEmpty params).isOk = true

/-- The one way in which an item can move the phase of a session. -/
inductive Advances (item : SessionItem) : Phase → Phase → Prop where
  | opens (h : item.Opens) : Advances item .awaitInitialize .awaitInitialized
  | completes (h : item.Completes) : Advances item .awaitInitialized .ready

/-- Every item leaves the phase unchanged or moves it forward. -/
theorem next_phase_cases (phase : Phase) (item : SessionItem) :
    nextPhase phase item = phase ∨ Advances item phase (nextPhase phase item) := by
  unfold nextPhase
  split
  · exact .inl rfl
  · rename_i id method params hincoming
    split
    · rename_i hsingle
      rw [Bool.and_eq_true, decide_eq_true_eq, Bool.not_eq_true'] at hsingle
      obtain ⟨rfl, hbatch⟩ := hsingle
      unfold runInitialize
      split
      · exact .inl rfl
      · split
        · exact .inl rfl
        · rename_i haccepts
          dsimp only
          split
          · rename_i hphase
            subst hphase
            exact .inr (.opens ⟨hbatch, params, ⟨id, hincoming⟩, by simpa using haccepts⟩)
          · exact .inl rfl
    · exact .inl rfl
  · rename_i method params hincoming
    split
    · rename_i hmethod
      subst hmethod
      unfold initialized
      split
      · rename_i hcompletes
        rw [Bool.and_eq_true, decide_eq_true_eq] at hcompletes
        obtain ⟨hparams, rfl⟩ := hcompletes
        exact .inr (.completes ⟨params, hincoming, hparams⟩)
      · exact .inl rfl
    · exact .inl rfl

/-- The place of a phase in a session. -/
def Phase.rank : Phase → Nat
  | .awaitInitialize => 0
  | .awaitInitialized => 1
  | .ready => 2
  | .stateless => 3

theorem rank_le_next_phase (phase : Phase) (item : SessionItem) :
    phase.rank ≤ (nextPhase phase item).rank := by
  rcases next_phase_cases phase item with hsame | hadvances
  · rw [hsame]
  · generalize nextPhase phase item = next at hadvances
    cases hadvances <;> decide

theorem rank_le_phase_after (phase : Phase) (items : List SessionItem) :
    phase.rank ≤ (phaseAfter phase items).rank := by
  induction items generalizing phase with
  | nil => exact le_refl _
  | cons item rest ih => exact (rank_le_next_phase phase item).trans (ih _)

/-- The items contain a successful opening. -/
def Opened (items : List SessionItem) : Prop :=
  ∃ earlier opening later, items = earlier ++ opening :: later ∧
    phaseAfter .awaitInitialize earlier = .awaitInitialize ∧ opening.Opens

/-- The items contain a successful opening and, after it, the completing notification. -/
def HandshakeDone (items : List SessionItem) : Prop :=
  ∃ earlier notice later, items = earlier ++ notice :: later ∧ Opened earlier ∧ notice.Completes

/-- What the phase says about the items before it. -/
theorem phase_after_history (items : List SessionItem) :
    match phaseAfter .awaitInitialize items with
    | .awaitInitialize => True
    | .awaitInitialized => Opened items
    | .ready => HandshakeDone items
    | .stateless => False := by
  induction items using List.reverseRecOn with
  | nil => trivial
  | append_singleton items item ih =>
      have hstep : phaseAfter .awaitInitialize (items ++ [item]) =
          nextPhase (phaseAfter .awaitInitialize items) item := by
        simp [phaseAfter]
      rw [hstep]
      rcases next_phase_cases (phaseAfter .awaitInitialize items) item with hsame | hadvances
      · rw [hsame]
        cases hphase : phaseAfter .awaitInitialize items with
        | awaitInitialize => trivial
        | awaitInitialized =>
            rw [hphase] at ih
            obtain ⟨earlier, opening, later, rfl, hopens⟩ := ih
            exact ⟨earlier, opening, later ++ [item], by simp, hopens⟩
        | ready =>
            rw [hphase] at ih
            obtain ⟨earlier, notice, later, rfl, hdone⟩ := ih
            exact ⟨earlier, notice, later ++ [item], by simp, hdone⟩
        | stateless =>
            rw [hphase] at ih
            exact ih
      · generalize hphase : phaseAfter .awaitInitialize items = phase at hadvances ih ⊢
        generalize nextPhase phase item = next at hadvances
        cases hadvances with
        | opens h => exact ⟨items, item, [], rfl, hphase, h⟩
        | completes h => exact ⟨items, item, [], rfl, ih, h⟩

/-! ## Answers -/

/-- The responses of a result. -/
def DispatchResult.responses : DispatchResult → List RpcResponse
  | .response answer => [answer]
  | .batch answers => answers
  | .notification => []

/-- The id that the answer to an item carries; nothing for a valid notification. -/
def itemId (item : Value) : Option Value :=
  match intoIncoming item with
  | none => some .null
  | some incoming => incoming.id

/-- The item is a valid notification. -/
def IsNotification (item : Value) : Prop :=
  ∃ incoming, intoIncoming item = some incoming ∧ incoming.id = none

/-- The answer of the dispatcher to the item of a frame that comes after the items `before`, which
have each been answered but for the notifications. -/
def answerAfter (tools : Tools) (phase : Phase) (frame : Option Value)
    (before : List SessionItem) : Option RpcResponse :=
  (dispatch tools phase frame).2.responses[
    (before.filterMap fun item => itemId item.value).length]?

theorem item_id_eq_none {item : Value} : itemId item = none ↔ IsNotification item := by
  unfold itemId IsNotification
  cases intoIncoming item with
  | none => simp
  | some incoming => simp

section

variable {tools : Tools} {phase : Phase}

theorem dispatch_incoming_id (incoming : Incoming) :
    (dispatchIncoming tools phase incoming).2.map RpcResponse.id = incoming.id := by
  unfold dispatchIncoming
  cases incoming.id <;> rfl

theorem dispatch_batch_item_id (item : Value) :
    (dispatchBatchItem tools phase item).2.map RpcResponse.id = itemId item := by
  unfold dispatchBatchItem itemId
  cases intoIncoming item with
  | none => rfl
  | some incoming =>
      dsimp only
      split
      · cases incoming.id <;> rfl
      · exact dispatch_incoming_id incoming

/-- The answers to the items of a batch, in order. -/
theorem dispatch_batch_ids (items : List Value) :
    ∀ phase, (dispatchBatch tools phase items).2.map RpcResponse.id = items.filterMap itemId := by
  induction items with
  | nil =>
      intro phase
      rfl
  | cons item rest ih =>
      intro phase
      show ((dispatchBatchItem tools phase item).2.toList ++
        (dispatchBatch tools (dispatchBatchItem tools phase item).1 rest).2).map RpcResponse.id = _
      rw [List.map_append, ih, List.filterMap_cons, ← @dispatch_batch_item_id tools phase item]
      cases (dispatchBatchItem tools phase item).2 <;> rfl

/-- Each answer of a batch is the answer to one item, in the phase that the items before it
left. -/
theorem dispatch_batch_answers (items : List Value) :
    ∀ phase, (dispatchBatch tools phase items).2 =
      (items.zipIdx.filterMap fun entry =>
        (dispatchBatchItem tools
          (phaseAfter phase ((items.take entry.2).map (⟨true, ·⟩))) entry.1).2) := by
  induction items with
  | nil =>
      intro phase
      rfl
  | cons item rest ih =>
      intro phase
      show (dispatchBatchItem tools phase item).2.toList ++
        (dispatchBatch tools (dispatchBatchItem tools phase item).1 rest).2 = _
      rw [ih, dispatch_batch_item_phase, List.zipIdx_cons, List.filterMap_cons]
      have htail : (rest.zipIdx (0 + 1)).filterMap (fun entry =>
          (dispatchBatchItem tools
            (phaseAfter phase (((item :: rest).take entry.2).map (⟨true, ·⟩))) entry.1).2) =
          rest.zipIdx.filterMap (fun entry =>
            (dispatchBatchItem tools
              (phaseAfter (nextPhase phase ⟨true, item⟩) ((rest.take entry.2).map (⟨true, ·⟩)))
              entry.1).2) := by
        rw [List.zipIdx_succ, List.filterMap_map]
        rfl
      have hnil : phaseAfter phase [] = phase := rfl
      rw [htail]
      simp only [List.take_zero, List.map_nil, hnil]
      cases (dispatchBatchItem tools phase item).2 <;> rfl

theorem dispatch_batch_append (items rest : List Value) :
    ∀ phase, (dispatchBatch tools phase (items ++ rest)).2 = (dispatchBatch tools phase items).2 ++
      (dispatchBatch tools (phaseAfter phase (items.map (⟨true, ·⟩))) rest).2 := by
  induction items with
  | nil =>
      intro phase
      rfl
  | cons item items ih =>
      intro phase
      have hphase : phaseAfter phase ((item :: items).map (⟨true, ·⟩)) =
          phaseAfter (dispatchBatchItem tools phase item).1 (items.map (⟨true, ·⟩)) := by
        rw [dispatch_batch_item_phase]
        rfl
      rw [hphase]
      show (dispatchBatchItem tools phase item).2.toList ++
        (dispatchBatch tools (dispatchBatchItem tools phase item).1 (items ++ rest)).2 = _
      rw [ih, ← List.append_assoc]
      rfl

/-- A frame that is not an array, on its only item. -/
theorem dispatch_single {item : Value} (h : ∀ items, item ≠ .array items) :
    (dispatch tools phase (some item)).2 =
      match intoIncoming item with
      | none => .response ⟨.null, .error .invalidRequest⟩
      | some incoming =>
          match (dispatchIncoming tools phase incoming).2 with
          | some response => .response response
          | none => .notification := by
  unfold dispatch
  cases item with
  | array items => exact absurd rfl (h items)
  | null | bool _ | number _ | string _ | object _ =>
      dsimp only
      cases intoIncoming _ with
      | none => rfl
      | some incoming =>
          dsimp only
          rcases dispatchIncoming tools phase incoming with ⟨next, response⟩
          cases response <;> rfl

/-- A batch within the limit. -/
theorem dispatch_batch {items : List Value}
    (h : (items.isEmpty || maxBatchItems < items.length) = false) :
    (dispatch tools phase (some (.array items))).2 =
      if (dispatchBatch tools phase items).2.isEmpty then .notification
      else .batch (dispatchBatch tools phase items).2 := by
  rw [Bool.or_eq_false_iff, decide_eq_false_iff_not] at h
  simp [dispatch, h.1, h.2]

/-- A batch that is empty or too long. -/
theorem dispatch_batch_refused {items : List Value}
    (h : (items.isEmpty || maxBatchItems < items.length) = true) :
    (dispatch tools phase (some (.array items))).2 =
      .response ⟨.null, .error .invalidRequest⟩ := by
  rw [Bool.or_eq_true, decide_eq_true_eq] at h
  unfold dispatch
  dsimp only
  split
  · rfl
  · rename_i hnonempty
    rw [if_pos (h.resolve_left hnonempty)]

/-- The answer to an item of a batch. -/
theorem dispatch_batch_answer {items : List Value} {value : Value} {rest : List Value}
    (hbound : ((items ++ value :: rest).isEmpty ||
      maxBatchItems < (items ++ value :: rest).length) = false) (hitem : ¬ IsNotification value) :
    answerAfter tools phase (some (.array (items ++ value :: rest))) (items.map (⟨true, ·⟩)) =
      (dispatchBatchItem tools (phaseAfter phase (items.map (⟨true, ·⟩))) value).2 := by
  have hresponses : (dispatch tools phase (some (.array (items ++ value :: rest)))).2.responses =
      (dispatchBatch tools phase (items ++ value :: rest)).2 := by
    rw [dispatch_batch hbound]
    cases (dispatchBatch tools phase (items ++ value :: rest)).2 <;> rfl
  have hbefore :
      ((items.map (SessionItem.mk true)).filterMap fun item => itemId item.value).length =
      (dispatchBatch tools phase items).2.length := by
    rw [List.filterMap_map, ← List.length_map (f := RpcResponse.id), dispatch_batch_ids]
    rfl
  obtain ⟨answer, hanswer⟩ : ∃ answer,
      (dispatchBatchItem tools (phaseAfter phase (items.map (⟨true, ·⟩))) value).2 =
        some answer := by
    rw [← item_id_eq_none, ← @dispatch_batch_item_id tools, Option.map_eq_none_iff] at hitem
    exact Option.ne_none_iff_exists'.mp hitem
  unfold answerAfter
  rw [hresponses, hbefore, dispatch_batch_append, List.getElem?_append_right (Nat.le_refl _),
    Nat.sub_self, hanswer]
  show ((dispatchBatchItem tools (phaseAfter phase (items.map (⟨true, ·⟩))) value).2.toList ++
    _)[0]? = _
  rw [hanswer]
  rfl

/-- The dispatcher answers an item that is no notification as `dispatchItem` does, in the phase
that the items before it left. -/
theorem dispatch_answer {frame : Option Value} {before after : List SessionItem}
    {item : SessionItem}
    (hframe : sessionItems frame = before ++ item :: after) (hitem : ¬ IsNotification item.value) :
    answerAfter tools phase frame before =
      (dispatchItem tools (phaseAfter phase before) item).2 := by
  rcases frame with _ | value
  · exact absurd hframe (by simp [sessionItems])
  by_cases harray : ∃ items, value = .array items
  · obtain ⟨items, rfl⟩ := harray
    cases hbound : items.isEmpty || decide (maxBatchItems < items.length) with
    | true =>
        rw [Bool.or_eq_true, decide_eq_true_eq] at hbound
        have hnone : sessionItems (some (.array items)) = [] := by
          unfold sessionItems frameItems
          rcases hbound with hempty | hlong <;> simp [*]
        rw [hnone] at hframe
        exact absurd hframe (by simp)
    | false =>
        have hbounds := hbound
        rw [Bool.or_eq_false_iff, decide_eq_false_iff_not] at hbounds
        have hitems : items.map (SessionItem.mk true) = before ++ item :: after := by
          rw [← hframe]
          simp [sessionItems, frameItems, hbounds.1, hbounds.2]
        obtain ⟨earlier, rest, rfl, rfl, hrest⟩ := List.map_eq_append_iff.mp hitems
        obtain ⟨value, later, rfl, rfl, rfl⟩ := List.map_eq_cons_iff.mp hrest
        exact dispatch_batch_answer hbound hitem
  · have hsingle : ∀ items, value ≠ .array items := fun items heq => harray ⟨items, heq⟩
    rw [session_items_single hsingle] at hframe
    obtain ⟨rfl, rfl, rfl⟩ : before = [] ∧ item = ⟨false, value⟩ ∧ after = [] := by
      cases before with
      | nil =>
          cases hframe
          exact ⟨rfl, rfl, rfl⟩
      | cons first before => simp at hframe
    unfold answerAfter dispatchItem
    rw [dispatch_single hsingle]
    show _ = (match intoIncoming value with
      | none => (phase, some (RpcResponse.mk .null (.error .invalidRequest)))
      | some incoming => dispatchIncoming tools phase incoming).2
    cases intoIncoming value with
    | none => rfl
    | some incoming =>
        dsimp only
        cases (dispatchIncoming tools phase incoming).2 <;> rfl

/-- A tool method is refused unless the session is ready. -/
theorem dispatch_item_unready {item : SessionItem} {id : Value} {method : String}
    {params : Option Value} (hmethod : method = "tools/list" ∨ method = "tools/call")
    (hincoming : intoIncoming item.value = some ⟨some id, method, params⟩)
    (hphase : phase.isReady = false) :
    (dispatchItem tools phase item).2 = some ⟨id, .error .notInitialized⟩ := by
  have hanswer : (dispatchIncoming tools phase ⟨some id, method, params⟩).2 =
      some ⟨id, .error .notInitialized⟩ := by
    rcases hmethod with rfl | rfl <;> simp [dispatchIncoming, dispatchRequest, hphase]
  have hother : method ≠ "initialize" := by
    rcases hmethod with rfl | rfl <;> decide
  unfold dispatchItem dispatchBatchItem
  rw [hincoming]
  dsimp only
  rw [if_neg hother]
  split <;> exact hanswer

end

/-- A request is no notification. -/
theorem not_is_notification {item : Value} {id : Value} {method : String} {params : Option Value}
    (h : intoIncoming item = some ⟨some id, method, params⟩) : ¬ IsNotification item := by
  rintro ⟨incoming, hincoming, hnone⟩
  rw [h] at hincoming
  cases hincoming
  cases hnone

/-- Tool methods are served only after the handshake: a request for one that the dispatcher does
not refuse as uninitialized comes after a single `initialize` request that succeeded and a later
notification, in the frames before it or earlier in its batch. -/
def ServedAfterHandshake (frames : List (Tools × Option Value)) : Prop :=
  ∀ earlier tools frame later, frames = earlier ++ (tools, frame) :: later →
    ∀ before item after id method params, sessionItems frame = before ++ item :: after →
      (method = "tools/list" ∨ method = "tools/call") →
      intoIncoming item.value = some ⟨some id, method, params⟩ →
      answerAfter tools (session .awaitInitialize earlier) frame before ≠
        some ⟨id, .error .notInitialized⟩ →
      HandshakeDone ((earlier.flatMap fun frame => sessionItems frame.2) ++ before)

/-- The phase of the session moves only forward, one place at a time, each time by the item
that is meant to move it; an `initialize` request that the dispatcher answers with an error, or
that comes again, leaves it as though it were not in its frame. -/
def PhaseOrdered (frames : List (Tools × Option Value)) : Prop :=
  (∀ earlier later, frames = earlier ++ later →
    (session .awaitInitialize earlier).rank ≤ (session .awaitInitialize frames).rank) ∧
  session .awaitInitialize frames =
    phaseAfter .awaitInitialize (frames.flatMap fun frame => sessionItems frame.2) ∧
  (∀ tools phase frame, (dispatch tools phase frame).1 = phaseAfter phase (sessionItems frame)) ∧
  (∀ phase item, nextPhase phase item = phase ∨ Advances item phase (nextPhase phase item)) ∧
  ∀ tools phase frame before item after id params,
    sessionItems frame = before ++ item :: after →
    intoIncoming item.value = some ⟨some id, "initialize", params⟩ →
    (phaseAfter phase before ≠ .awaitInitialize ∨
      ∃ failure, answerAfter tools phase frame before = some ⟨id, .error failure⟩) →
    (dispatch tools phase frame).1 = phaseAfter phase (before ++ after)

/-- A batch within the limit is answered item by item: one answer for each item that is not a
valid notification, in order and with the id of the item, each in the phase that the items
before it left, and none at all exactly if all items are valid notifications. -/
def BatchAnswered (tools : Tools) (phase : Phase) (items : List Value) : Prop :=
  items ≠ [] → items.length ≤ maxBatchItems →
    match (dispatch tools phase (some (.array items))).2 with
    | .notification => ∀ item ∈ items, IsNotification item
    | .batch responses =>
        responses.map RpcResponse.id = items.filterMap itemId ∧
        (∃ item ∈ items, ¬ IsNotification item) ∧
        responses = items.zipIdx.filterMap fun entry =>
          (dispatchBatchItem tools
            (phaseAfter phase ((items.take entry.2).map (⟨true, ·⟩))) entry.1).2
    | .response _ => False

theorem served_after_handshake (frames : List (Tools × Option Value)) :
    ServedAfterHandshake frames := by
  intro earlier tools frame later hframes before item after id method params hsplit hmethod
    hincoming hserved
  rw [dispatch_answer hsplit (not_is_notification hincoming)] at hserved
  have hphase : phaseAfter (session .awaitInitialize earlier) before =
      phaseAfter .awaitInitialize
        ((earlier.flatMap fun frame => sessionItems frame.2) ++ before) := by
    rw [session_phase]
    exact (List.foldl_append ..).symm
  rw [hphase] at hserved
  have hhistory := phase_after_history
    ((earlier.flatMap fun frame => sessionItems frame.2) ++ before)
  cases hready : phaseAfter .awaitInitialize
      ((earlier.flatMap fun frame => sessionItems frame.2) ++ before) with
  | ready =>
      rw [hready] at hhistory
      exact hhistory
  | stateless =>
      rw [hready] at hhistory
      exact hhistory.elim
  | awaitInitialize | awaitInitialized =>
      have hunready : (phaseAfter .awaitInitialize
          ((earlier.flatMap fun frame => sessionItems frame.2) ++ before)).isReady = false := by
        rw [hready]
        rfl
      -- An item that finds no ready phase is answered as uninitialized.
      exact absurd (dispatch_item_unready hmethod hincoming hunready) hserved

/-- A failed or repeated `initialize` leaves the phase. -/
theorem next_phase_initialize_failed {tools : Tools} {phase : Phase} {item : SessionItem}
    {id : Value} {params : Option Value}
    (hincoming : intoIncoming item.value = some ⟨some id, "initialize", params⟩)
    (hfailed : phase ≠ .awaitInitialize ∨ ∃ failure, (dispatchItem tools phase item).2 =
      some ⟨id, .error failure⟩) : nextPhase phase item = phase := by
  rcases next_phase_cases phase item with hsame | hadvances
  · exact hsame
  · generalize hnext : nextPhase phase item = next at hadvances
    cases hadvances with
    | completes h =>
        obtain ⟨_, hnotifies, _⟩ := h
        unfold SessionItem.Notifies at hnotifies
        rw [hincoming] at hnotifies
        cases hnotifies
    | opens h =>
        rcases hfailed with hphase | ⟨failure, hanswer⟩
        · exact absurd rfl hphase
        · -- The opening request is answered with its result.
          obtain ⟨hbatch, params', ⟨id', hincoming'⟩, haccepts⟩ := h
          rw [hincoming] at hincoming'
          cases hincoming'
          simp [dispatchItem, hbatch, hincoming, dispatchIncoming, dispatchRequest, runInitialize,
            haccepts] at hanswer

theorem phase_ordered (frames : List (Tools × Option Value)) : PhaseOrdered frames := by
  refine ⟨?_, session_phase frames, fun _ _ => dispatch_phase, next_phase_cases, ?_⟩
  · rintro earlier later rfl
    have happend : session .awaitInitialize (earlier ++ later) =
        session (session .awaitInitialize earlier) later :=
      List.foldl_append ..
    rw [happend, @session_phase (session .awaitInitialize earlier) later]
    exact rank_le_phase_after _ _
  · intro tools phase frame before item after id params hsplit hincoming hfailed
    rw [dispatch_answer hsplit (not_is_notification hincoming)] at hfailed
    have hsame := next_phase_initialize_failed hincoming hfailed
    -- The item that leaves the phase drops out of the fold.
    rw [dispatch_phase, hsplit]
    unfold phaseAfter at hsame ⊢
    rw [List.foldl_append, List.foldl_cons, hsame, ← List.foldl_append]

theorem batch_answered (tools : Tools) (phase : Phase) (items : List Value) :
    BatchAnswered tools phase items := by
  intro hnonempty hlength
  have hids := @dispatch_batch_ids tools items phase
  have hanswers := @dispatch_batch_answers tools items phase
  have hempty : items.isEmpty = false := by
    rw [Bool.eq_false_iff, Ne, List.isEmpty_iff]
    exact hnonempty
  have hresult : (dispatch tools phase (some (.array items))).2 =
      if (dispatchBatch tools phase items).2.isEmpty then .notification
      else .batch (dispatchBatch tools phase items).2 := by
    simp [dispatch, hempty, Nat.not_lt.mpr hlength]
  rw [hresult]
  cases hresponses : (dispatchBatch tools phase items).2 with
  | nil =>
      show ∀ item ∈ items, IsNotification item
      rw [hresponses, List.map_nil, eq_comm, List.filterMap_eq_nil_iff] at hids
      intro item hitem
      exact item_id_eq_none.mp (hids item hitem)
  | cons response rest =>
      rw [hresponses] at hids hanswers
      refine ⟨hids, ?_, hanswers⟩
      have hmem : response.id ∈ items.filterMap itemId := by
        rw [← hids]
        exact List.mem_cons_self
      obtain ⟨item, hitem, hid⟩ := List.mem_filterMap.mp hmem
      refine ⟨item, hitem, ?_⟩
      rw [← item_id_eq_none, hid]
      simp

/-- The protocol of a session, for every list of frames. -/
theorem mcp_session_protocol (frames : List (Tools × Option Value)) :
    ServedAfterHandshake frames ∧ PhaseOrdered frames ∧
      ∀ tools phase items, BatchAnswered tools phase items :=
  ⟨served_after_handshake frames, phase_ordered frames, batch_answered⟩

end EmbeddingServer.Mcp
