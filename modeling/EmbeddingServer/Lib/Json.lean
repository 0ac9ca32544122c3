import Mathlib.Data.List.Basic

/-!
# JSON values and their compact text

`Json.write` is the text of a JSON value without white space, as compact writers print it:
decimal numbers, strings with the two-character escapes and `\u00xx` for the other control
characters. The text determines the value: `Json.write_injective`. Every construct carries
its own end, numbers excepted, so the proof compares texts in front of a rest that does not
begin with a digit.
-/

/-- A JSON value with natural numbers; the fields of an object are in the order written. -/
inductive Json where
  | null
  | bool (value : Bool)
  | number (value : Nat)
  | string (value : String)
  | array (items : List Json)
  | object (fields : List (String × Json))

namespace Json

/-! ## Strings -/

/-- The text of one character inside a string. -/
def escape (c : Char) : List Char :=
  if c = '"' then ['\\', '"']
  else if c = '\\' then ['\\', '\\']
  else if c.toNat = 8 then ['\\', 'b']
  else if c.toNat = 9 then ['\\', 't']
  else if c.toNat = 10 then ['\\', 'n']
  else if c.toNat = 12 then ['\\', 'f']
  else if c.toNat = 13 then ['\\', 'r']
  else if c.toNat < 32 then
    ['\\', 'u', '0', '0', Nat.digitChar (c.toNat / 16), Nat.digitChar (c.toNat % 16)]
  else [c]

/-- The value of a hexadecimal digit. -/
def hexValue (c : Char) : Nat :=
  if c.isDigit then c.toNat - 48 else c.toNat - 87

/-- Read one character of a string; nothing at the closing quote. -/
def unescape : List Char → Option (Char × List Char)
  | '"' :: _ => none
  | '\\' :: '"' :: rest => some ('"', rest)
  | '\\' :: '\\' :: rest => some ('\\', rest)
  | '\\' :: 'b' :: rest => some (Char.ofNat 8, rest)
  | '\\' :: 't' :: rest => some (Char.ofNat 9, rest)
  | '\\' :: 'n' :: rest => some (Char.ofNat 10, rest)
  | '\\' :: 'f' :: rest => some (Char.ofNat 12, rest)
  | '\\' :: 'r' :: rest => some (Char.ofNat 13, rest)
  | '\\' :: 'u' :: '0' :: '0' :: high :: low :: rest =>
      some (Char.ofNat (16 * hexValue high + hexValue low), rest)
  | c :: rest => some (c, rest)
  | [] => none

/-- A digit below sixteen is read back. -/
theorem hex_value_digit_char {d : Nat} (h : d < 16) : hexValue (Nat.digitChar d) = d := by
  have hall : ∀ digit < 16, hexValue (Nat.digitChar digit) = digit := by decide
  exact hall d h

/-- A character is read back from its text. -/
theorem unescape_escape (c : Char) (rest : List Char) :
    unescape (escape c ++ rest) = some (c, rest) := by
  have hcode : ∀ {n : Nat}, c.toNat = n → Char.ofNat n = c := by
    intro n hn
    rw [← hn, Char.ofNat_toNat]
  unfold escape
  by_cases hquote : c = '"'
  · subst hquote
    rfl
  by_cases hslash : c = '\\'
  · subst hslash
    rfl
  rw [if_neg hquote, if_neg hslash]
  by_cases h8 : c.toNat = 8
  · rw [if_pos h8, ← hcode h8]
    rfl
  rw [if_neg h8]
  by_cases h9 : c.toNat = 9
  · rw [if_pos h9, ← hcode h9]
    rfl
  rw [if_neg h9]
  by_cases h10 : c.toNat = 10
  · rw [if_pos h10, ← hcode h10]
    rfl
  rw [if_neg h10]
  by_cases h12 : c.toNat = 12
  · rw [if_pos h12, ← hcode h12]
    rfl
  rw [if_neg h12]
  by_cases h13 : c.toNat = 13
  · rw [if_pos h13, ← hcode h13]
    rfl
  rw [if_neg h13]
  by_cases h32 : c.toNat < 32
  · rw [if_pos h32]
    show some (Char.ofNat (16 * hexValue _ + hexValue _), rest) = _
    rw [hex_value_digit_char (by omega), hex_value_digit_char (by omega),
      hcode (n := 16 * (c.toNat / 16) + c.toNat % 16) (by omega)]
  · rw [if_neg h32]
    simp only [List.cons_append, List.nil_append]
    unfold unescape
    split <;> simp_all

/-- The text of a string. -/
def quote (value : String) : List Char :=
  '"' :: (value.toList.flatMap escape ++ ['"'])

/-- The text between the quotes determines the characters. -/
theorem escaped_inj {left right rest other : List Char}
    (h : left.flatMap escape ++ '"' :: rest = right.flatMap escape ++ '"' :: other) :
    left = right ∧ rest = other := by
  induction left generalizing right with
  | nil =>
      cases right with
      | nil => exact ⟨rfl, (List.cons.inj h).2⟩
      | cons c right =>
          have hread := congrArg unescape h
          rw [List.flatMap_cons, List.append_assoc, unescape_escape] at hread
          cases hread
  | cons c left ih =>
      cases right with
      | nil =>
          have hread := congrArg unescape h
          rw [List.flatMap_cons, List.append_assoc, unescape_escape] at hread
          cases hread
      | cons d right =>
          have hread := congrArg unescape h
          rw [List.flatMap_cons, List.append_assoc, unescape_escape, List.flatMap_cons,
            List.append_assoc, unescape_escape, Option.some.injEq, Prod.mk.injEq] at hread
          obtain ⟨rfl, htail⟩ := hread
          obtain ⟨rfl, hrest⟩ := ih htail
          exact ⟨rfl, hrest⟩

/-- A quoted string is self-delimiting. -/
theorem quote_inj {left right : String} {rest other : List Char}
    (h : quote left ++ rest = quote right ++ other) : left = right ∧ rest = other := by
  simp only [quote, List.cons_append, List.append_assoc, List.nil_append, List.cons.injEq,
    true_and] at h
  obtain ⟨hchars, hrest⟩ := escaped_inj h
  exact ⟨String.toList_inj.mp hchars, hrest⟩

/-! ## Values -/

mutual
/-- The text of a value. -/
def write : Json → List Char
  | .null => ['n', 'u', 'l', 'l']
  | .bool true => ['t', 'r', 'u', 'e']
  | .bool false => ['f', 'a', 'l', 's', 'e']
  | .number value => Nat.toDigits 10 value
  | .string value => quote value
  | .array [] => ['[', ']']
  | .array (item :: items) => '[' :: (write item ++ writeItems items)
  | .object [] => ['{', '}']
  | .object ((key, value) :: fields) =>
      '{' :: (quote key ++ ':' :: (write value ++ writeFields fields))

/-- The text of the items after the first, and the closing bracket. -/
def writeItems : List Json → List Char
  | [] => [']']
  | item :: items => ',' :: (write item ++ writeItems items)

/-- The text of the fields after the first, and the closing brace. -/
def writeFields : List (String × Json) → List Char
  | [] => ['}']
  | (key, value) :: fields =>
      ',' :: (quote key ++ ':' :: (write value ++ writeFields fields))
end

/-- A text that can follow a value: it does not continue a number. -/
def Stops (text : List Char) : Prop :=
  ∀ c ∈ text.head?, c.isDigit = false

/-- A text whose first character is no digit can follow a value. -/
theorem stops_cons {c : Char} {text : List Char} (h : c.isDigit = false) : Stops (c :: text) := by
  intro d hd
  rw [List.head?_cons, Option.mem_def, Option.some.injEq] at hd
  exact hd ▸ h

/-- The items after the first can follow a value. -/
theorem stops_write_items (items : List Json) (rest : List Char) :
    Stops (writeItems items ++ rest) := by
  cases items with
  | nil => exact stops_cons rfl
  | cons item items => exact stops_cons rfl

/-- The fields after the first can follow a value. -/
theorem stops_write_fields (fields : List (String × Json)) (rest : List Char) :
    Stops (writeFields fields ++ rest) := by
  cases fields with
  | nil => exact stops_cons rfl
  | cons field fields => exact stops_cons rfl

/-- Digits in front of a text that stops are determined by the whole. -/
theorem digits_inj {left right rest other : List Char}
    (hleft : ∀ c ∈ left, c.isDigit = true) (hright : ∀ c ∈ right, c.isDigit = true)
    (hrest : Stops rest) (hother : Stops other) (h : left ++ rest = right ++ other) :
    left = right ∧ rest = other := by
  have hspan : ∀ {digits tail : List Char}, (∀ c ∈ digits, c.isDigit = true) → Stops tail →
      (digits ++ tail).takeWhile Char.isDigit = digits := by
    intro digits tail hdigits htail
    rw [List.takeWhile_append_of_pos hdigits]
    cases tail with
    | nil => rw [List.takeWhile_nil, List.append_nil]
    | cons c tail =>
        have hc : c.isDigit = false := htail c rfl
        rw [List.takeWhile_cons, hc]
        simp
  have heq : left = right := by
    rw [← hspan hleft hrest, h, hspan hright hother]
  subst heq
  exact ⟨rfl, List.append_cancel_left h⟩

/-- The forms of a JSON value. -/
inductive Kind where
  | null
  | bool
  | number
  | string
  | array
  | object
  deriving DecidableEq

/-- The form of a value. -/
def kind : Json → Kind
  | .null => .null
  | .bool _ => .bool
  | .number _ => .number
  | .string _ => .string
  | .array _ => .array
  | .object _ => .object

/-- The form that a first character announces. -/
def announced (c : Char) : Kind :=
  if c.isDigit then .number
  else if c = 'n' then .null
  else if c = '"' then .string
  else if c = '[' then .array
  else if c = '{' then .object
  else .bool

/-- The first character of a text announces the form of the value. -/
theorem write_head (value : Json) :
    ∃ c text, write value = c :: text ∧ announced c = value.kind := by
  cases value with
  | null => exact ⟨_, _, rfl, rfl⟩
  | bool value => cases value <;> exact ⟨_, _, rfl, rfl⟩
  | number value =>
      cases hdigits : Nat.toDigits 10 value with
      | nil => exact absurd hdigits Nat.toDigits_ne_nil
      | cons c text =>
          have hc : c.isDigit = true := by
            apply Nat.isDigit_of_mem_toDigits (b := 10) (n := value) (by decide) (by decide)
            rw [hdigits]
            exact List.mem_cons_self
          refine ⟨c, text, hdigits, ?_⟩
          rw [announced, if_pos hc]
          rfl
  | string value => exact ⟨_, _, rfl, rfl⟩
  | array items =>
      cases items with
      | nil => exact ⟨_, _, rfl, rfl⟩
      | cons item items => exact ⟨_, _, rfl, rfl⟩
  | object fields =>
      cases fields with
      | nil => exact ⟨_, _, rfl, rfl⟩
      | cons field fields => exact ⟨_, _, rfl, rfl⟩

/-- Values whose texts begin in the same way have the same form. -/
theorem kind_eq {left right : Json} {rest other : List Char}
    (h : write left ++ rest = write right ++ other) : left.kind = right.kind := by
  obtain ⟨c, text, htext, hc⟩ := write_head left
  obtain ⟨d, more, hmore, hd⟩ := write_head right
  rw [htext, hmore, List.cons_append, List.cons_append, List.cons.injEq] at h
  rw [← hc, ← hd, h.1]

/-- No value begins with a closing bracket or brace. -/
theorem write_ne_close (value : Json) {close : Char} (hclose : announced close = .bool)
    (ht : close ≠ 't') (hf : close ≠ 'f') {rest other : List Char} :
    write value ++ rest ≠ close :: other := by
  intro h
  obtain ⟨c, text, htext, hc⟩ := write_head value
  rw [htext, List.cons_append, List.cons.injEq] at h
  rw [h.1, hclose] at hc
  cases value with
  | bool value =>
      cases value with
      | false =>
          rw [write] at htext
          exact hf (h.1 ▸ (List.cons.inj htext).1.symm)
      | true =>
          rw [write] at htext
          exact ht (h.1 ▸ (List.cons.inj htext).1.symm)
  | _ => cases hc

-- the induction is on the first value; the form of the second follows from its text
mutual
/-- A value in front of a text that stops is determined by the whole. -/
theorem write_inj : ∀ (left right : Json) (rest other : List Char), Stops rest → Stops other →
    write left ++ rest = write right ++ other → left = right ∧ rest = other
  | .null, right, rest, other, _, _, h => by
      have hkind := kind_eq h
      cases right with
      | null => exact ⟨rfl, List.append_cancel_left h⟩
      | _ => cases hkind
  | .bool value, right, rest, other, _, _, h => by
      have hkind := kind_eq h
      cases right with
      | bool value' => cases value <;> cases value' <;> simp_all [write]
      | _ => cases hkind
  | .number value, right, rest, other, hrest, hother, h => by
      have hkind := kind_eq h
      cases right with
      | number value' =>
          rw [write, write] at h
          have hdigits : ∀ n, ∀ c ∈ Nat.toDigits 10 n, c.isDigit = true := fun n c hc =>
            Nat.isDigit_of_mem_toDigits (by decide) (by decide) hc
          obtain ⟨heq, htail⟩ := digits_inj (hdigits _) (hdigits _) hrest hother h
          have hvalue := congrArg (fun digits => Nat.ofDigitChars 10 digits 0) heq
          rw [Nat.ofDigitChars_ten_toDigits, Nat.ofDigitChars_ten_toDigits] at hvalue
          exact ⟨by rw [hvalue], htail⟩
      | _ => cases hkind
  | .string value, right, rest, other, _, _, h => by
      have hkind := kind_eq h
      cases right with
      | string value' =>
          rw [write, write] at h
          obtain ⟨heq, htail⟩ := quote_inj h
          exact ⟨by rw [heq], htail⟩
      | _ => cases hkind
  | .array [], right, rest, other, _, _, h => by
      have hkind := kind_eq h
      cases right with
      | array items =>
          cases items with
          | nil => exact ⟨rfl, List.append_cancel_left h⟩
          | cons item items =>
              simp only [write, List.cons_append, List.append_assoc, List.nil_append,
                List.cons.injEq, true_and] at h
              -- An item does not begin with the bracket that closes an empty array.
              exact absurd h.symm (write_ne_close item rfl (by decide) (by decide))
      | _ => cases hkind
  | .array (item :: items), right, rest, other, _, _, h => by
      have hkind := kind_eq h
      cases right with
      | array right =>
          cases right with
          | nil =>
              simp only [write, List.cons_append, List.append_assoc, List.nil_append,
                List.cons.injEq, true_and] at h
              exact absurd h (write_ne_close item rfl (by decide) (by decide))
          | cons item' items' =>
              simp only [write, List.cons_append, List.append_assoc, List.cons.injEq,
                true_and] at h
              -- The first items are followed by a comma or the bracket, which end a number as well.
              obtain ⟨heq, htail⟩ := write_inj item item' _ _ (stops_write_items _ _)
                (stops_write_items _ _) h
              obtain ⟨hitems, hrest⟩ := write_items_inj items items' _ _ htail
              exact ⟨by rw [heq, hitems], hrest⟩
      | _ => cases hkind
  | .object [], right, rest, other, _, _, h => by
      have hkind := kind_eq h
      cases right with
      | object fields =>
          cases fields with
          | nil => exact ⟨rfl, List.append_cancel_left h⟩
          | cons field fields => simp [write, quote] at h
      | _ => cases hkind
  | .object ((key, value) :: fields), right, rest, other, _, _, h => by
      have hkind := kind_eq h
      cases right with
      | object right =>
          cases right with
          -- A field begins with a quote, an empty object ends at once.
          | nil => simp [write, quote] at h
          | cons field' fields' =>
              obtain ⟨key', value'⟩ := field'
              simp only [write, List.cons_append, List.append_assoc, List.cons.injEq,
                true_and] at h
              obtain ⟨hkey, hafter⟩ := quote_inj h
              simp only [List.cons.injEq, true_and] at hafter
              obtain ⟨heq, htail⟩ := write_inj value value' _ _ (stops_write_fields _ _)
                (stops_write_fields _ _) hafter
              obtain ⟨hfields, hrest⟩ := write_fields_inj fields fields' _ _ htail
              exact ⟨by rw [hkey, heq, hfields], hrest⟩
      | _ => cases hkind

/-- The items after the first are determined by their text. -/
theorem write_items_inj : ∀ (left right : List Json) (rest other : List Char),
    writeItems left ++ rest = writeItems right ++ other → left = right ∧ rest = other
  | [], right, rest, other, h => by
      cases right with
      | nil => exact ⟨rfl, List.append_cancel_left h⟩
      | cons item items => simp [writeItems] at h
  | item :: items, right, rest, other, h => by
      cases right with
      | nil => simp [writeItems] at h
      | cons item' items' =>
          simp only [writeItems, List.cons_append, List.append_assoc, List.cons.injEq,
            true_and] at h
          obtain ⟨heq, htail⟩ := write_inj item item' _ _ (stops_write_items _ _)
            (stops_write_items _ _) h
          obtain ⟨hitems, hrest⟩ := write_items_inj items items' _ _ htail
          exact ⟨by rw [heq, hitems], hrest⟩

/-- The fields after the first are determined by their text. -/
theorem write_fields_inj : ∀ (left right : List (String × Json)) (rest other : List Char),
    writeFields left ++ rest = writeFields right ++ other → left = right ∧ rest = other
  | [], right, rest, other, h => by
      cases right with
      | nil => exact ⟨rfl, List.append_cancel_left h⟩
      | cons field fields => simp [writeFields] at h
  | (key, value) :: fields, right, rest, other, h => by
      cases right with
      | nil => simp [writeFields] at h
      | cons field' fields' =>
          obtain ⟨key', value'⟩ := field'
          simp only [writeFields, List.cons_append, List.append_assoc, List.cons.injEq,
            true_and] at h
          obtain ⟨hkey, hafter⟩ := quote_inj h
          simp only [List.cons.injEq, true_and] at hafter
          obtain ⟨heq, htail⟩ := write_inj value value' _ _ (stops_write_fields _ _)
            (stops_write_fields _ _) hafter
          obtain ⟨hfields, hrest⟩ := write_fields_inj fields fields' _ _ htail
          exact ⟨by rw [hkey, heq, hfields], hrest⟩
end

/-- The text determines the value. -/
theorem write_injective : Function.Injective write := by
  intro left right h
  have hnil : Stops [] := by
    intro c hc
    cases hc
  exact (write_inj left right [] [] hnil hnil (by rw [h])).1

end Json
