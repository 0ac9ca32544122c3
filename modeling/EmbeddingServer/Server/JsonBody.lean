import EmbeddingServer.Lib.SerdeFields
import EmbeddingServer.Server.GrpcAuth
import EmbeddingServer.Server.GrpcTimeout
import EmbeddingServer.Server.InputLimits

/-!
# The body of a JSON request

`decode_json` reads a body only if the content type is JSON, the announced length is a single
number within the limit, and the body is as short (`JsonRequest.Readable`). It refuses the others
as invalid, with the status of what was wrong (`Refusal`). The JSON reader, which gives nothing
for malformed bytes, is a parameter.
-/

namespace EmbeddingServer

open Serde

/-- What `decode_json` reads of a request. -/
structure JsonRequest where
  headers : HeaderMap
  body : List UInt8

/-- `StatusCode::UNSUPPORTED_MEDIA_TYPE`. -/
def unsupportedMediaType : Nat := 415

/-- The content type that `decode_json` lets pass. -/
def isJsonContent (headers : HeaderMap) : Bool :=
  ((singleHeader headers "content-type").bind headerText).any fun text =>
    (text.splitOn 59).head?.any fun mediaType =>
      lowerBytes (trimBytes mediaType) = literalBytes "application/json"

/-- `parse::<u64>()`, on ASCII text. -/
def parseU64 (text : List UInt8) : Option Nat :=
  let digits := (stripBytes (literalBytes "+") text).getD text
  if digits.all isDigitByte then parseDigits digits else none

/-- The check of the announced length in `decode_json`. -/
def checkContentLength (limits : Limits) (headers : HeaderMap) (flavor : ErrorFlavor) :
    Except ErrorResponse Unit :=
  if (headers.getAll "content-length").isEmpty then .ok ()
  else
    match ((singleHeader headers "content-length").bind headerText).bind parseU64 with
    | none => .error (errorResponse flavor badRequest .invalidRequest)
    | some length =>
        if limits.maxBodyBytes < length then
          .error (errorResponse flavor payloadTooLarge .invalidRequest)
        else .ok ()

/-- `decode_json`. -/
def decodeJson {α : Type} (read : List UInt8 → Option Value) (decode : Value → Option α)
    (limits : Limits) (request : JsonRequest) (flavor : ErrorFlavor) : Except ErrorResponse α :=
  if isJsonContent request.headers = false then
    .error (errorResponse flavor unsupportedMediaType .invalidRequest)
  else do
    checkContentLength limits request.headers flavor
    if limits.maxBodyBytes < request.body.length then
      .error (errorResponse flavor payloadTooLarge .invalidRequest)
    else
      match (read request.body).bind decode with
      | none => .error (errorResponse flavor badRequest .invalidRequest)
      | some decoded => .ok decoded

/-! ## What passes -/

/-- The text of a length: digits after at most one plus sign, with the value of a word. -/
def LengthText (text : List UInt8) (length : Nat) : Prop :=
  ∃ digits, (text = digits ∨ text = literalBytes "+" ++ digits) ∧ digits ≠ [] ∧
    digits.all isDigitByte = true ∧ digitsValue digits = length ∧ length < 2 ^ wordBits

/-- What `decode_json` lets pass to the reader. -/
structure JsonRequest.Readable (limits : Limits) (request : JsonRequest) : Prop where
  content : isJsonContent request.headers = true
  announced : request.headers.getAll "content-length" = [] ∨ ∃ text length,
    request.headers.getAll "content-length" = [text] ∧ LengthText text length ∧
      length ≤ limits.maxBodyBytes
  short : request.body.length ≤ limits.maxBodyBytes

theorem parse_digits_eq_some {digits : List UInt8} {length : Nat} :
    parseDigits digits = some length ↔
      digits ≠ [] ∧ digitsValue digits = length ∧ length < 2 ^ wordBits := by
  unfold parseDigits
  rw [ne_eq, ← List.isEmpty_iff]
  split
  · rename_i hrefused
    constructor
    · intro h
      cases h
    · intro h
      obtain ⟨hne, rfl, hlt⟩ := h
      rcases hrefused with hnil | hlarge
      · exact absurd hnil hne
      · omega
  · rename_i hpassed
    rw [not_or] at hpassed
    rw [Option.some.injEq]
    constructor
    · intro h
      exact ⟨hpassed.1, h, by omega⟩
    · intro h
      exact h.2.1

/-- A length is read from its texts. -/
theorem parse_u64_eq_some {text : List UInt8} {length : Nat} :
    parseU64 text = some length ↔ LengthText text length := by
  have hplus : literalBytes "+" = [43] := rfl
  unfold parseU64 LengthText
  rw [hplus]
  dsimp only
  cases hstrip : stripBytes [43] text with
  | none =>
      -- Without a plus sign the text is the digits.
      have hunsigned : ∀ digits, text ≠ [43] ++ digits := by
        intro digits hsigned
        rw [strip_bytes_eq_some.mpr hsigned] at hstrip
        cases hstrip
      rw [Option.getD_none]
      split
      · rename_i hdigits
        rw [parse_digits_eq_some]
        constructor
        · intro h
          exact ⟨text, .inl rfl, h.1, hdigits, h.2⟩
        · intro h
          obtain ⟨digits, rfl | hsigned, hne, _, hvalue⟩ := h
          · exact ⟨hne, hvalue⟩
          · exact absurd hsigned (hunsigned digits)
      · rename_i hdigits
        constructor
        · intro h
          cases h
        · intro h
          obtain ⟨digits, rfl | hsigned, _, hall, _⟩ := h
          · exact absurd hall hdigits
          · exact absurd hsigned (hunsigned digits)
  | some rest =>
      have htext := strip_bytes_eq_some.mp hstrip
      rw [Option.getD_some]
      -- With a plus sign only what follows it can be digits.
      have hdigits : ∀ digits, (text = digits ∨ text = [43] ++ digits) →
          digits.all isDigitByte = true → digits = rest := by
        intro digits htext' hall
        rcases htext' with rfl | hsigned
        · rw [htext] at hall
          cases hall
        · exact List.append_cancel_left (hsigned.symm.trans htext)
      split
      · rename_i hall
        rw [parse_digits_eq_some]
        constructor
        · intro h
          exact ⟨rest, .inr htext, h.1, hall, h.2⟩
        · intro h
          obtain ⟨digits, hspelled, hne, hall', hvalue⟩ := h
          obtain rfl := hdigits digits hspelled hall'
          exact ⟨hne, hvalue⟩
      · rename_i hother
        constructor
        · intro h
          cases h
        · intro h
          obtain ⟨digits, hspelled, _, hall, _⟩ := h
          exact absurd (hdigits digits hspelled hall ▸ hall) hother

/-- A length in plain digits is visible text. -/
theorem LengthText.visible {text : List UInt8} {length : Nat} (h : LengthText text length) :
    headerText text = some text := by
  obtain ⟨digits, htext, _, hdigits, _⟩ := h
  have hvisible : ∀ byte ∈ digits, ((32 ≤ byte && byte < 127) || byte = 9) = true := by
    intro byte hbyte
    have hdigit := List.all_eq_true.mp hdigits byte hbyte
    unfold isDigitByte at hdigit
    simp only [Bool.and_eq_true, Bool.or_eq_true, decide_eq_true_eq, UInt8.le_iff_toNat_le,
      UInt8.lt_iff_toNat_lt, UInt8.toNat_ofNat] at hdigit ⊢
    omega
  unfold headerText
  rw [if_pos]
  rw [List.all_eq_true]
  rcases htext with rfl | rfl
  · exact hvisible
  · exact List.forall_mem_cons.mpr ⟨by decide, hvisible⟩

theorem check_content_length_ok_iff {limits : Limits} {headers : HeaderMap} {flavor : ErrorFlavor} :
    checkContentLength limits headers flavor = .ok () ↔
      (headers.getAll "content-length" = [] ∨ ∃ text length,
        headers.getAll "content-length" = [text] ∧ LengthText text length ∧
          length ≤ limits.maxBodyBytes) := by
  unfold checkContentLength
  rw [← List.isEmpty_iff]
  split
  · rename_i habsent
    exact ⟨fun _ => .inl habsent, fun _ => rfl⟩
  · rename_i hpresent
    split
    · rename_i hnone
      constructor
      · intro h
        cases h
      · intro h
        -- A single readable length would have been found.
        obtain ⟨text, length, hsingle, hlength, _⟩ := h.resolve_left hpresent
        unfold singleHeader at hnone
        rw [hsingle] at hnone
        dsimp only at hnone
        rw [Option.bind_some, hlength.visible, Option.bind_some,
          parse_u64_eq_some.mpr hlength] at hnone
        cases hnone
    · rename_i length hsome
      obtain ⟨text, htext, hlength⟩ := Option.bind_eq_some_iff.mp hsome
      obtain ⟨value, hvalue, hvisible⟩ := Option.bind_eq_some_iff.mp htext
      have hgiven : headers.getAll "content-length" = [text] := by
        obtain rfl := (header_text_eq_some.mp hvisible).2
        unfold singleHeader at hvalue
        split at hvalue
        · rename_i hsingle
          cases hvalue
          exact hsingle
        · cases hvalue
      have hread := parse_u64_eq_some.mp hlength
      split
      · rename_i hlong
        constructor
        · intro h
          cases h
        · intro h
          obtain ⟨text', length', hsingle, hlength', hshort⟩ := h.resolve_left hpresent
          cases hgiven.symm.trans hsingle
          cases hlength.symm.trans (parse_u64_eq_some.mpr hlength')
          omega
      · rename_i hshort
        exact ⟨fun _ => .inr ⟨text, length, hgiven, hread, by omega⟩, fun _ => rfl⟩

section

variable {α : Type} {read : List UInt8 → Option Value} {decode : Value → Option α}
  {limits : Limits} {request : JsonRequest} {flavor : ErrorFlavor}

/-- What `decode_json` accepts. -/
theorem decode_json_ok_iff {decoded : α} :
    decodeJson read decode limits request flavor = .ok decoded ↔ request.Readable limits ∧
      ∃ value, read request.body = some value ∧ decode value = some decoded := by
  unfold decodeJson
  split
  · rename_i hcontent
    constructor
    · intro h
      cases h
    · intro h
      rw [h.1.content] at hcontent
      cases hcontent
  · rename_i hcontent
    rw [Bool.not_eq_false] at hcontent
    rw [Checked.bind_ok]
    constructor
    · intro h
      obtain ⟨_, hlength, h⟩ := h
      split at h
      · cases h
      · rename_i hshort
        cases hvalue : (read request.body).bind decode with
        | none =>
            rw [hvalue] at h
            cases h
        | some given =>
            rw [hvalue] at h
            cases h
            exact ⟨⟨hcontent, check_content_length_ok_iff.mp hlength, by omega⟩,
              Option.bind_eq_some_iff.mp hvalue⟩
    · intro h
      obtain ⟨hreadable, hvalue⟩ := h
      refine ⟨(), check_content_length_ok_iff.mpr hreadable.announced, ?_⟩
      rw [if_neg (by have := hreadable.short; omega), Option.bind_eq_some_iff.mpr hvalue]

/-- The statuses with which a route refuses a request before the application. -/
def Refusal (flavor : ErrorFlavor) (response : ErrorResponse) : Prop :=
  ∃ status, (status = badRequest ∨ status = payloadTooLarge ∨ status = unsupportedMediaType) ∧
    response = errorResponse flavor status .invalidRequest

theorem check_content_length_error {headers : HeaderMap} {response : ErrorResponse}
    (h : checkContentLength limits headers flavor = .error response) : Refusal flavor response := by
  unfold checkContentLength at h
  split at h
  · cases h
  · split at h
    · cases h
      exact ⟨badRequest, .inl rfl, rfl⟩
    · split at h
      · cases h
        exact ⟨payloadTooLarge, .inr (.inl rfl), rfl⟩
      · cases h

theorem decode_json_error {response : ErrorResponse}
    (h : decodeJson read decode limits request flavor = .error response) :
    Refusal flavor response := by
  unfold decodeJson at h
  split at h
  · cases h
    exact ⟨unsupportedMediaType, .inr (.inr rfl), rfl⟩
  · cases hlength : checkContentLength limits request.headers flavor with
    | error refused =>
        rw [hlength] at h
        cases h
        exact check_content_length_error hlength
    | ok _ =>
        rw [hlength] at h
        change (if _ then _ else _) = Except.error response at h
        split at h
        · cases h
          exact ⟨payloadTooLarge, .inr (.inl rfl), rfl⟩
        · split at h
          · cases h
            exact ⟨badRequest, .inl rfl, rfl⟩
          · cases h

end

end EmbeddingServer
