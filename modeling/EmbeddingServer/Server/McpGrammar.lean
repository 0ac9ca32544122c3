import EmbeddingServer.Server.Mcp

/-!
# The grammar of envelopes

An envelope is an object with the members `jsonrpc`, `id`, `method` and `params`. The derived
decoding takes an array of three or four values for one as well, by their positions. An array
as a frame is a batch, so this happens to the items of batches only.
-/

namespace EmbeddingServer.Mcp

open Serde

/-- A JSON-RPC request or notification. -/
def IsEnvelope (value : Value) : Prop :=
  ∃ members, value = .object members ∧ (members.map Prod.fst).Nodup ∧
    (∀ entry ∈ members, entry.1 ∈ ["jsonrpc", "id", "method", "params"]) ∧
    member members "jsonrpc" = some (.string "2.0") ∧
    (∃ method, member members "method" = some (.string method) ∧ method ≠ "") ∧
    ∀ id, member members "id" = some id → validId id = true

/-- An array that the decoding takes for an envelope. -/
def IsPositional (value : Value) : Prop :=
  ∃ id method rest, value = .array (.string "2.0" :: id :: .string method :: rest) ∧
    rest.length ≤ 1 ∧ method ≠ "" ∧ validId id = true

/-- Strings and numbers are not changed. -/
theorem valid_id_collapse (value : Value) : validId value.collapse = validId value := by
  cases value <;> rfl

/-- The fields of an envelope that passes: what `into_incoming` checks of them. -/
def Passes (jsonrpc id method : Option Value) : Prop :=
  jsonrpc = some (.string "2.0") ∧ (∃ text, method = some (.string text) ∧ text ≠ "") ∧
    ∀ value, id = some value → validId value = true

/-- `into_incoming` accepts what decodes and passes. -/
theorem into_incoming_eq_some {item : Value} {incoming : Incoming} :
    intoIncoming item = some incoming ↔
      ∃ jsonrpc id method params,
        deriveStruct envelopeFields item = some [jsonrpc, id, method, params] ∧
        Passes jsonrpc id method ∧ method = some (.string incoming.method) ∧
        incoming.id = id.map Value.collapse ∧ incoming.params = params.map Value.collapse := by
  unfold intoIncoming
  constructor
  · intro h
    split at h
    · rename_i jsonrpc id method params hfields
      dsimp only at h
      split at h
      · cases h
      · rename_i hpasses
        cases h
        simp only [Bool.or_eq_true, decide_eq_true_eq, not_or, Decidable.not_not,
          String.isEmpty_iff, Option.any_map] at hpasses
        obtain ⟨⟨rfl, hmethod⟩, hid⟩ := hpasses
        refine ⟨_, id, _, params, hfields, ⟨rfl, ⟨method, rfl, hmethod⟩, ?_⟩, rfl, rfl, rfl⟩
        rintro value rfl
        simpa [valid_id_collapse] using hid
    · cases h
  · rintro ⟨jsonrpc, id, method, params, hfields, ⟨rfl, ⟨text, rfl, htext⟩, hid⟩,
      hmethod, hids, hparams⟩
    rw [Option.some.injEq, Value.string.injEq] at hmethod
    subst hmethod
    rw [hfields]
    dsimp only
    rw [if_neg]
    · rw [← hids, ← hparams]
    · simp only [Bool.or_eq_true, decide_eq_true_eq, not_or, Decidable.not_not,
        String.isEmpty_iff, Option.any_map]
      refine ⟨⟨trivial, htext⟩, ?_⟩
      cases id with
      | none => simp
      | some value => simpa [valid_id_collapse] using hid value rfl

/-- The fields of an object. -/
theorem derive_struct_object {members : List (String × Value)}
    {jsonrpc id method params : Option Value} :
    deriveStruct envelopeFields (.object members) = some [jsonrpc, id, method, params] ↔
      (members.map Prod.fst).Nodup ∧
      (∀ entry ∈ members, entry.1 ∈ ["jsonrpc", "id", "method", "params"]) ∧
      jsonrpc = member members "jsonrpc" ∧ id = member members "id" ∧
      method = member members "method" ∧ params = member members "params" ∧
      jsonrpc ≠ none ∧ method ≠ none := by
  rw [derive_struct_object_eq_some]
  simp only [envelopeFields, List.mapM_cons, List.mapM_nil, Option.bind_eq_bind,
    Option.bind_eq_some_iff, Field.named_eq_some, Option.pure_def, Option.some.injEq, and_assoc]
  refine and_congr_right fun _ => and_congr_right fun _ => ?_
  constructor
  · rintro ⟨a, ha, hna, bs, ⟨b, hb, _, cs, ⟨c, hc, hnc, ds, ⟨d, hd, _, _, rfl, rfl⟩, rfl⟩, rfl⟩, h⟩
    injection h with h₁ h
    injection h with h₂ h
    injection h with h₃ h
    injection h with h₄ h
    subst h₁ h₂ h₃ h₄
    exact ⟨ha, hb, hc, hd, fun h => by simpa using hna h, fun h => by simpa using hnc h⟩
  · rintro ⟨ha, hb, hc, hd, hna, hnc⟩
    exact ⟨_, ha, fun h => absurd h hna, _, ⟨_, hb, fun _ => trivial, _,
      ⟨_, hc, fun h => absurd h hnc, _, ⟨_, hd, fun _ => trivial, _, rfl, rfl⟩, rfl⟩, rfl⟩, rfl⟩

/-- The fields of an array. -/
theorem derive_struct_array {items : List Value} {jsonrpc id method params : Option Value} :
    deriveStruct envelopeFields (.array items) = some [jsonrpc, id, method, params] ↔
      ∃ a b c rest, items = a :: b :: c :: rest ∧ rest.length ≤ 1 ∧ jsonrpc = some a ∧
        id = some b ∧ method = some c ∧ params = rest.head? := by
  unfold deriveStruct envelopeFields
  match items with
  | [] => simp [positional]
  | [a] => simp [positional]
  | [a, b] => simp [positional]
  | [a, b, c] =>
      simp [positional]
      grind
  | [a, b, c, d] =>
      simp [positional]
      grind
  | a :: b :: c :: d :: e :: rest => simp [positional]

/-- The accepted objects are the envelopes of the grammar. -/
theorem into_incoming_object (members : List (String × Value)) :
    (intoIncoming (.object members)).isSome = true ↔ IsEnvelope (.object members) := by
  rw [Option.isSome_iff_exists]
  constructor
  · rintro ⟨incoming, h⟩
    obtain ⟨jsonrpc, id, method, params, hfields, ⟨hversion, hmethod, hid⟩, _⟩ :=
      into_incoming_eq_some.mp h
    obtain ⟨hnodup, hknown, rfl, rfl, rfl, _⟩ := derive_struct_object.mp hfields
    exact ⟨members, rfl, hnodup, hknown, hversion, hmethod, hid⟩
  · rintro ⟨_, ⟨⟩, hnodup, hknown, hversion, ⟨method, hmethod, htext⟩, hid⟩
    exact ⟨⟨(member members "id").map Value.collapse, method,
      (member members "params").map Value.collapse⟩,
      into_incoming_eq_some.mpr ⟨_, _, _, _, derive_struct_object.mpr
        ⟨hnodup, hknown, rfl, rfl, rfl, rfl, by simp [hversion], by simp [hmethod]⟩,
        ⟨hversion, ⟨method, hmethod, htext⟩, hid⟩, hmethod, rfl, rfl⟩⟩

/-- The accepted arrays are the positional ones. -/
theorem into_incoming_array (items : List Value) :
    (intoIncoming (.array items)).isSome = true ↔ IsPositional (.array items) := by
  rw [Option.isSome_iff_exists]
  constructor
  · rintro ⟨incoming, h⟩
    obtain ⟨jsonrpc, id, method, params, hfields, ⟨hversion, ⟨text, htext, hne⟩, hid⟩, _⟩ :=
      into_incoming_eq_some.mp h
    obtain ⟨a, b, c, rest, rfl, hlength, rfl, rfl, rfl, rfl⟩ := derive_struct_array.mp hfields
    cases hversion
    cases htext
    exact ⟨b, text, rest, rfl, hlength, hne, hid b rfl⟩
  · rintro ⟨id, method, rest, ⟨⟩, hlength, hne, hid⟩
    exact ⟨⟨some id.collapse, method, rest.head?.map Value.collapse⟩,
      into_incoming_eq_some.mpr ⟨_, _, _, _, derive_struct_array.mpr
        ⟨_, _, _, _, rfl, hlength, rfl, rfl, rfl, rfl⟩,
        ⟨rfl, ⟨method, rfl, hne⟩, by rintro _ ⟨⟩; exact hid⟩, rfl, rfl, rfl⟩⟩

/-- What is accepted: the grammar, and positional arrays. -/
theorem into_incoming_is_some_iff (value : Value) :
    (intoIncoming value).isSome = true ↔ IsEnvelope value ∨ IsPositional value := by
  cases value with
  | object members =>
      rw [into_incoming_object]
      refine ⟨.inl, ?_⟩
      rintro (h | ⟨_, _, _, ⟨⟩, _⟩)
      exact h
  | array items =>
      rw [into_incoming_array]
      refine ⟨.inr, ?_⟩
      rintro (⟨_, ⟨⟩, _⟩ | h)
      exact h
  | null | bool | number | string =>
      constructor
      · intro h
        cases h
      · rintro (⟨_, ⟨⟩, _⟩ | ⟨_, _, _, ⟨⟩, _⟩)

/-! ## Frames -/

/-- The values of a frame that are looked at as envelopes: the items of a batch that is not
refused as a whole, or the frame itself. -/
def frameItems : Value → Option (List Value)
  | .array items => if items.isEmpty || maxBatchItems < items.length then none else some items
  | value => some [value]

/-- The dispatcher answers the item, in its frame, as an invalid request, whatever the phase. -/
def AnsweredInvalid (frame item : Value) : Prop :=
  ∀ tools phase,
    match frame with
    | .array _ => dispatchBatchItem tools phase item =
        (phase, some ⟨.null, .error .invalidRequest⟩)
    | frame => dispatch tools phase (some frame) =
        (phase, .response ⟨.null, .error .invalidRequest⟩)

/-- The dispatcher takes the frame by the grammar: exactly the envelopes among its items are
requests or notifications, the latter without an id, and everything else is answered as an
invalid request and changes nothing. -/
def ByGrammar (frame : Value) : Prop :=
  match frameItems frame with
  | none => ∀ tools phase, dispatch tools phase (some frame) =
      (phase, .response ⟨.null, .error .invalidRequest⟩)
  | some items => ∀ item ∈ items,
      ((intoIncoming item).isSome = true ↔ IsEnvelope item) ∧
      (∀ incoming members, intoIncoming item = some incoming → item = .object members →
        (incoming.id = none ↔ member members "id" = none)) ∧
      (¬ IsEnvelope item → AnsweredInvalid frame item)

/-- The item of a batch that no envelope fits is answered as an invalid request. -/
theorem answered_invalid_of_none {frame item : Value} {items : List Value}
    (hframe : frameItems frame = some items) (hitem : item ∈ items)
    (hnone : intoIncoming item = none) : AnsweredInvalid frame item := by
  intro tools phase
  cases frame with
  | array all =>
      dsimp only
      unfold dispatchBatchItem
      rw [hnone]
  | object | null | bool | number | string =>
      cases hframe
      rw [List.mem_singleton] at hitem
      subst hitem
      dsimp only
      unfold dispatch
      simp only [hnone]

/-- The frame is taken by the grammar exactly if it is not a batch with a positional array. -/
theorem envelope_grammar_iff (frame : Value) :
    ByGrammar frame ↔
      ∀ items, frame = .array items → items.length ≤ maxBatchItems →
        ∀ item ∈ items, ¬ IsPositional item := by
  unfold ByGrammar
  split
  · rename_i hitems
    cases frame with
    | array items =>
        simp only [frameItems] at hitems
        split at hitems
        · rename_i hrefused
          rw [Bool.or_eq_true, List.isEmpty_iff, decide_eq_true_eq] at hrefused
          constructor
          · rintro _ _ ⟨⟩ hlength item hitem
            rcases hrefused with rfl | hlong
            · cases hitem
            · omega
          · intro _ tools phase
            unfold dispatch
            rcases hrefused with rfl | hlong
            · rfl
            · dsimp only
              split
              · rfl
              · rfl
        · cases hitems
    | object | null | bool | number | string => cases hitems
  · rename_i items hitems
    constructor
    · rintro h all rfl hlength item hitem hpositional
      simp only [frameItems] at hitems
      split at hitems
      · cases hitems
      · cases hitems
        have henvelope :=
          (h item hitem).1.mp ((into_incoming_is_some_iff item).mpr (.inr hpositional))
        obtain ⟨members, rfl, _⟩ := henvelope
        obtain ⟨_, _, _, ⟨⟩, _⟩ := hpositional
    · intro h item hitem
      -- A frame that is no array is not positional either.
      have hnot : ¬ IsPositional item := by
        cases frame with
        | array all =>
            simp only [frameItems] at hitems
            split at hitems
            · cases hitems
            · rename_i hsmall
              cases hitems
              rw [Bool.or_eq_true, decide_eq_true_eq, not_or, Nat.not_lt] at hsmall
              exact h items rfl hsmall.2 item hitem
        | object | null | bool | number | string =>
            cases hitems
            rw [List.mem_singleton] at hitem
            subst hitem
            rintro ⟨_, _, _, ⟨⟩, _⟩
      have haccepted : (intoIncoming item).isSome = true ↔ IsEnvelope item := by
        rw [into_incoming_is_some_iff]
        exact or_iff_left hnot
      refine ⟨haccepted, ?_, ?_⟩
      · rintro incoming members hincoming rfl
        obtain ⟨jsonrpc, id, method, params, hfields, _, _, hid, _⟩ :=
          into_incoming_eq_some.mp hincoming
        obtain ⟨_, _, _, rfl, _⟩ := derive_struct_object.mp hfields
        rw [hid, Option.map_eq_none_iff]
      · intro hno
        refine answered_invalid_of_none hitems hitem ?_
        rw [← haccepted] at hno
        simpa using hno

/-- A ping, spelled as an array. -/
def spelledPing : Value :=
  .array [.string "2.0", .number (.unsigned 1), .string "ping"]

/-- Tools that refuse everything. -/
def idleTools : Tools :=
  ⟨fun _ => .error .invalidParams, fun _ => .error .invalidParams⟩

/-- A batch with an array in it: the array is answered like the request it spells. -/
theorem positional_array_dispatched :
    dispatch idleTools .ready (some (.array [spelledPing])) =
      (.ready, .batch [⟨.number (.unsigned 1), .ok .empty⟩]) ∧
    ¬ IsEnvelope spelledPing ∧ ¬ ByGrammar (.array [spelledPing]) := by
  have hpositional : IsPositional spelledPing :=
    ⟨.number (.unsigned 1), "ping", [], rfl, Nat.zero_le 1, by decide, rfl⟩
  have henvelope : ¬ IsEnvelope spelledPing := by
    rintro ⟨members, h, _⟩
    cases h
  refine ⟨rfl, henvelope, ?_⟩
  intro hgrammar
  have haccepted := (into_incoming_is_some_iff spelledPing).mpr (.inr hpositional)
  exact henvelope ((hgrammar spelledPing (List.mem_singleton_self _)).1.mp haccepted)

end EmbeddingServer.Mcp
