import EmbeddingServer.Server.GrpcAuth
import Mathlib.Data.Nat.Digits.Defs

/-!
# The timeout header of gRPC calls

A gRPC caller may send its own timeout. `parse_grpc_timeout` reads the header, and
`parse_grpc_timeout_ok_iff` is the language of it. Durations are in nanoseconds.
-/

namespace EmbeddingServer

/-- Nanoseconds in a second. -/
def nanosPerSecond : Nat := 1000000000

/-- `u64::saturating_mul`. -/
def saturatingMul (left right : Nat) : Nat :=
  min (left * right) (2 ^ wordBits - 1)

/-- `byte.is_ascii_digit()`. -/
def isDigitByte (byte : UInt8) : Bool :=
  48 ≤ byte && byte ≤ 57

/-- The value of a list of ASCII digits. -/
def digitsValue (digits : List UInt8) : Nat :=
  digits.foldl (fun value byte => 10 * value + (byte.toNat - 48)) 0

/-- `digits.parse::<u64>()`, on ASCII digits. -/
def parseDigits (digits : List UInt8) : Option Nat :=
  if digits.isEmpty ∨ 2 ^ wordBits ≤ digitsValue digits then none else some (digitsValue digits)

/-- The `match` on the unit of a timeout. -/
def timeoutDuration (unit : UInt8) (amount : Nat) : Option Nat :=
  if unit = 72 then some (saturatingMul amount (60 * 60) * nanosPerSecond)
  else if unit = 77 then some (saturatingMul amount 60 * nanosPerSecond)
  else if unit = 83 then some (amount * nanosPerSecond)
  else if unit = 109 then some (amount * 1000000)
  else if unit = 117 then some (amount * 1000)
  else if unit = 110 then some amount
  else none

/-- `invalid_request_status`, before it is encoded. -/
def invalidRequestStatus : PublicError :=
  PublicError.forCode .invalidRequest

/-- What `parse_grpc_timeout` makes of the text of the header. -/
def parseTimeoutText (text : List UInt8) : Except PublicError Nat :=
  if text.length < 2 ∨ 9 < text.length then .error invalidRequestStatus
  else
    let digits := text.take (text.length - 1)
    let unit := text.drop (text.length - 1)
    if 8 < digits.length ∨ !digits.all isDigitByte then .error invalidRequestStatus
    else
      match parseDigits digits with
      | none => .error invalidRequestStatus
      | some amount =>
          match unit with
          | [unit] =>
              match timeoutDuration unit amount with
              | none => .error invalidRequestStatus
              | some duration => .ok duration
          | _ => .error invalidRequestStatus

/-- `parse_grpc_timeout`. -/
def parseGrpcTimeout (metadata : HeaderMap) : Except PublicError (Option Nat) :=
  if metadata.any fun entry => entry.1 = "grpc-timeout-bin" then .error invalidRequestStatus
  else
    match metadata.getAll "grpc-timeout" with
    | [] => .ok none
    | [value] =>
        match headerText value with
        | none => .error invalidRequestStatus
        | some text =>
            match parseTimeoutText text with
            | .error error => .error error
            | .ok duration => .ok (some duration)
    | _ => .error invalidRequestStatus

/-! ## The language of the header -/

/-- A unit of the header: its letter, and its length in nanoseconds. -/
inductive TimeoutUnit where
  | hours
  | minutes
  | seconds
  | millis
  | micros
  | nanos
  deriving DecidableEq, Repr

/-- The letter of a unit. -/
def TimeoutUnit.letter : TimeoutUnit → UInt8
  | .hours => 72
  | .minutes => 77
  | .seconds => 83
  | .millis => 109
  | .micros => 117
  | .nanos => 110

/-- The length of a unit. -/
def TimeoutUnit.length : TimeoutUnit → Nat
  | .hours => 3600 * nanosPerSecond
  | .minutes => 60 * nanosPerSecond
  | .seconds => nanosPerSecond
  | .millis => 1000000
  | .micros => 1000
  | .nanos => 1

/-- The text is an amount of at most eight digits and a unit, and means the duration. -/
def TimeoutText (text : List UInt8) (duration : Nat) : Prop :=
  ∃ digits unit, text = digits ++ [TimeoutUnit.letter unit] ∧ digits ≠ [] ∧ digits.length ≤ 8 ∧
    digits.all isDigitByte = true ∧ duration = digitsValue digits * unit.length

/-- The fold that reads digits, from any value on, stays below the next power of ten. -/
theorem digits_value_foldl_lt {digits : List UInt8} (h : digits.all isDigitByte = true)
    (start : Nat) :
    digits.foldl (fun value byte => 10 * value + (byte.toNat - 48)) start <
      (start + 1) * 10 ^ digits.length := by
  induction digits generalizing start with
  | nil => simp
  | cons byte rest ih =>
      rw [List.all_cons, Bool.and_eq_true] at h
      have hbyte : byte.toNat ≤ 57 := by
        have hdigit := h.1
        rw [isDigitByte, Bool.and_eq_true, decide_eq_true_eq, decide_eq_true_eq] at hdigit
        exact UInt8.le_iff_toNat_le.mp hdigit.2
      have hrest := ih h.2 (10 * start + (byte.toNat - 48))
      rw [List.foldl_cons]
      calc _ < (10 * start + (byte.toNat - 48) + 1) * 10 ^ rest.length := hrest
        _ ≤ ((start + 1) * 10) * 10 ^ rest.length := Nat.mul_le_mul_right _ (by omega)
        _ = (start + 1) * 10 ^ (byte :: rest).length := by
            rw [List.length_cons, Nat.pow_succ', Nat.mul_assoc]

/-- Eight digits are an amount below ten to the eighth. -/
theorem digits_value_lt {digits : List UInt8} (h : digits.all isDigitByte = true)
    (hlength : digits.length ≤ 8) : digitsValue digits < 100000000 := by
  have hbound := digits_value_foldl_lt h 0
  have hpow : 10 ^ digits.length ≤ 10 ^ 8 := Nat.pow_le_pow_right (by omega) hlength
  unfold digitsValue
  omega

/-- Amounts of eight digits do not saturate. -/
theorem timeout_duration_letter (unit : TimeoutUnit) {amount : Nat} (h : amount < 100000000) :
    timeoutDuration unit.letter amount = some (amount * unit.length) := by
  have hword : 2 ^ wordBits = 18446744073709551616 := rfl
  cases unit with
  | hours =>
      show some (min (amount * (60 * 60)) (2 ^ wordBits - 1) * nanosPerSecond) = _
      rw [Nat.min_eq_left (by omega), Nat.mul_assoc]
      rfl
  | minutes =>
      show some (min (amount * 60) (2 ^ wordBits - 1) * nanosPerSecond) = _
      rw [Nat.min_eq_left (by omega), Nat.mul_assoc]
      rfl
  | seconds => rfl
  | millis => rfl
  | micros => rfl
  | nanos =>
      show some amount = some (amount * 1)
      rw [Nat.mul_one]

/-- A letter with a duration is one of a unit. -/
theorem timeout_duration_some {letter : UInt8} {amount duration : Nat}
    (h : timeoutDuration letter amount = some duration) :
    ∃ unit, letter = TimeoutUnit.letter unit := by
  unfold timeoutDuration at h
  repeat' split at h
  · exact ⟨.hours, ‹_›⟩
  · exact ⟨.minutes, ‹_›⟩
  · exact ⟨.seconds, ‹_›⟩
  · exact ⟨.millis, ‹_›⟩
  · exact ⟨.micros, ‹_›⟩
  · exact ⟨.nanos, ‹_›⟩
  · cases h

/-- An amount of at most eight digits is a word. -/
theorem parse_digits_eq {digits : List UInt8} (hne : digits ≠ [])
    (h : digits.all isDigitByte = true)
    (hlength : digits.length ≤ 8) : parseDigits digits = some (digitsValue digits) := by
  have hlt := digits_value_lt h hlength
  have hword : 2 ^ wordBits = 18446744073709551616 := rfl
  unfold parseDigits
  rw [if_neg]
  rw [List.isEmpty_iff]
  intro hbad
  rcases hbad with hempty | hlarge
  · exact hne hempty
  · omega

/-- The texts that are accepted, and what they mean. -/
theorem parse_timeout_text_ok_iff {text : List UInt8} {duration : Nat} :
    parseTimeoutText text = .ok duration ↔ TimeoutText text duration := by
  constructor
  · intro h
    unfold parseTimeoutText at h
    split at h
    · cases h
    · rename_i hlength
      dsimp only at h
      split at h
      · cases h
      · rename_i hdigits
        -- All but the last byte are digits, up to eight of them.
        have hall : (text.take (text.length - 1)).all isDigitByte = true := by
          by_contra hfalse
          exact hdigits (.inr (by simpa using hfalse))
        have hlen : (text.take (text.length - 1)).length = text.length - 1 := by
          rw [List.length_take]
          omega
        have hne : text.take (text.length - 1) ≠ [] := by
          intro hempty
          rw [hempty] at hlen
          have hzero : 0 = text.length - 1 := hlen
          omega
        rw [parse_digits_eq hne hall (by omega)] at h
        dsimp only at h
        split at h
        · rename_i letter hletter
          split at h
          · cases h
          · rename_i value hvalue
            obtain ⟨unit, rfl⟩ := timeout_duration_some hvalue
            rw [timeout_duration_letter unit (digits_value_lt hall (by omega)),
              Option.some.injEq] at hvalue
            cases h
            refine ⟨text.take (text.length - 1), unit, ?_, hne, by omega, hall, hvalue.symm⟩
            rw [← hletter, List.take_append_drop]
        · cases h
  · intro h
    obtain ⟨digits, unit, rfl, hne, hlength, hall, rfl⟩ := h
    have hpos : 0 < digits.length := List.length_pos_iff.mpr hne
    have htotal : (digits ++ [unit.letter]).length = digits.length + 1 := by simp
    -- The letter is split off again.
    have hfront : (digits ++ [unit.letter]).length - 1 = digits.length := by omega
    unfold parseTimeoutText
    rw [if_neg (by omega)]
    dsimp only
    rw [hfront, List.take_left, List.drop_left, if_neg (by simp [hall]; omega),
      parse_digits_eq hne hall hlength]
    dsimp only
    rw [timeout_duration_letter unit (digits_value_lt hall hlength)]

/-- Texts of timeouts are text for `to_str`. -/
theorem TimeoutText.visible {text : List UInt8} {duration : Nat} (h : TimeoutText text duration) :
    isHeaderText text = true := by
  obtain ⟨digits, unit, rfl, _, _, hall, _⟩ := h
  have hletter : isHeaderText [unit.letter] = true := by
    cases unit <;> decide
  have hdigits : isHeaderText digits = true := by
    unfold isHeaderText headerText
    rw [if_pos]
    · rfl
    · rw [List.all_eq_true] at hall ⊢
      intro byte hbyte
      have hdigit := hall byte hbyte
      rw [isDigitByte, Bool.and_eq_true, decide_eq_true_eq, decide_eq_true_eq,
        UInt8.le_iff_toNat_le, UInt8.le_iff_toNat_le] at hdigit
      rw [Bool.or_eq_true, Bool.and_eq_true, decide_eq_true_eq, decide_eq_true_eq,
        UInt8.le_iff_toNat_le, UInt8.lt_iff_toNat_lt]
      left
      have h48 : (48 : UInt8).toNat = 48 := rfl
      have h57 : (57 : UInt8).toNat = 57 := rfl
      have h32 : (32 : UInt8).toNat = 32 := rfl
      have h127 : (127 : UInt8).toNat = 127 := rfl
      omega
  rw [is_header_text_append, hdigits, hletter]
  rfl

/-- The headers that are accepted: none, or a single timeout. -/
theorem parse_grpc_timeout_ok_iff {metadata : HeaderMap} {timeout : Option Nat} :
    parseGrpcTimeout metadata = .ok timeout ↔
      (metadata.any fun entry => entry.1 = "grpc-timeout-bin") = false ∧
        ((timeout = none ∧ metadata.getAll "grpc-timeout" = []) ∨
          ∃ text duration, timeout = some duration ∧ metadata.getAll "grpc-timeout" = [text] ∧
            TimeoutText text duration) := by
  unfold parseGrpcTimeout
  cases hbin : metadata.any fun entry => entry.1 = "grpc-timeout-bin" with
  | true => simp
  | false =>
      rw [if_neg Bool.false_ne_true]
      constructor
      · intro h
        refine ⟨rfl, ?_⟩
        split at h
        · rename_i hnone
          cases h
          exact .inl ⟨rfl, hnone⟩
        · rename_i value hvalue
          right
          split at h
          · cases h
          · rename_i text htext
            obtain ⟨_, rfl⟩ := header_text_eq_some.mp htext
            split at h
            · cases h
            · rename_i duration hduration
              cases h
              exact ⟨value, duration, rfl, hvalue, parse_timeout_text_ok_iff.mp hduration⟩
        · cases h
      · intro h
        rcases h.2 with ⟨rfl, hnone⟩ | ⟨text, duration, rfl, hvalue, htext⟩
        · rw [hnone]
        · rw [hvalue]
          dsimp only
          rw [header_text_eq_some.mpr ⟨htext.visible, rfl⟩]
          dsimp only
          rw [parse_timeout_text_ok_iff.mpr htext]

/-- Every other header is an invalid request. -/
theorem parse_grpc_timeout_error {metadata : HeaderMap} {error : PublicError}
    (h : parseGrpcTimeout metadata = .error error) : error = invalidRequestStatus := by
  have htext : ∀ {text : List UInt8} {error : PublicError}, parseTimeoutText text = .error error →
      error = invalidRequestStatus := by
    intro text error htext
    unfold parseTimeoutText at htext
    dsimp only at htext
    repeat' split at htext
    all_goals first
      | (cases htext; rfl)
      | cases htext
  unfold parseGrpcTimeout at h
  repeat' split at h
  · exact (Except.error.inj h).symm
  · cases h
  · exact (Except.error.inj h).symm
  · rename_i reason hreason
    rw [← Except.error.inj h]
    exact htext hreason
  · cases h
  · exact (Except.error.inj h).symm

end EmbeddingServer
