import EmbeddingServer.Lib.Bytes
import EmbeddingServer.Lib.Json
import EmbeddingServer.Lib.Serde
import Mathlib.Data.List.Sort
import Mathlib.Data.String.Basic

/-!
# Compact text of buffered values

`Value.write` is the text of a buffered value: an object is a map whose members are written in the
order of their names, of repeated ones the last. The text of a fraction is a parameter. It has no
control characters (`write_plain`), so a text is a single line, in UTF-8 as well
(`newline_not_mem_bytes`).
-/

namespace Serde

/-- The decimal text of an integer. -/
def intText (value : Int) : List Char :=
  if value < 0 then '-' :: Nat.toDigits 10 value.natAbs else Nat.toDigits 10 value.natAbs

/-- The text of a number. -/
def Number.write (float : UInt64 → List Char) : Number → List Char
  | .unsigned value => Nat.toDigits 10 value.toNat
  | .negative value => intText value.toInt
  | .float bits => float bits

/-- Members in the order of their names. -/
def orderByName {α : Type} (members : List (String × α)) : List (String × α) :=
  members.insertionSort fun left right => left.1 ≤ right.1

/-- The text of an object, from the texts of its members. -/
def writeObject (members : List (String × List Char)) : List Char :=
  '{' :: ([','].intercalate
    ((orderByName (keepLast members)).map fun entry =>
      Json.quote entry.1 ++ ':' :: entry.2)) ++ ['}']

mutual

/-- The text of a value. -/
def Value.write (float : UInt64 → List Char) : Value → List Char
  | .null => ['n', 'u', 'l', 'l']
  | .bool true => ['t', 'r', 'u', 'e']
  | .bool false => ['f', 'a', 'l', 's', 'e']
  | .number value => value.write float
  | .string value => Json.quote value
  | .array items => '[' :: [','].intercalate (itemTexts float items) ++ [']']
  | .object members => writeObject (memberTexts float members)

/-- The texts of the items. -/
def itemTexts (float : UInt64 → List Char) : List Value → List (List Char)
  | [] => []
  | item :: rest => item.write float :: itemTexts float rest

/-- The texts of the members. -/
def memberTexts (float : UInt64 → List Char) : List (String × Value) → List (String × List Char)
  | [] => []
  | (name, value) :: rest => (name, value.write float) :: memberTexts float rest

end

/-! ## Control characters -/

/-- A text without control characters below the blank. -/
def Plain (text : List Char) : Prop :=
  ∀ c ∈ text, 32 ≤ c.toNat

instance (text : List Char) : Decidable (Plain text) :=
  List.decidableBAll (fun c : Char => 32 ≤ c.toNat) text

theorem plain_append {left right : List Char} (hleft : Plain left) (hright : Plain right) :
    Plain (left ++ right) := by
  intro c hc
  rcases List.mem_append.mp hc with h | h
  · exact hleft c h
  · exact hright c h

theorem plain_cons {c : Char} {text : List Char} (hc : 32 ≤ c.toNat) (htext : Plain text) :
    Plain (c :: text) :=
  List.forall_mem_cons.mpr ⟨hc, htext⟩

theorem plain_intercalate {separator : List Char} {texts : List (List Char)}
    (hseparator : Plain separator) (h : ∀ text ∈ texts, Plain text) :
    Plain (separator.intercalate texts) := by
  induction texts with
  | nil => exact fun _ hc => absurd hc List.not_mem_nil
  | cons text rest ih =>
      rw [List.forall_mem_cons] at h
      cases rest with
      | nil =>
          rw [List.intercalate_singleton]
          exact h.1
      | cons next rest =>
          rw [List.intercalate_cons_cons]
          exact plain_append (plain_append h.1 hseparator) (ih h.2)

theorem digit_char_plain {digit : Nat} (h : digit < 16) : 32 ≤ (Nat.digitChar digit).toNat := by
  have hall : ∀ digit < 16, 32 ≤ (Nat.digitChar digit).toNat := by decide
  exact hall digit h

theorem to_digits_plain (value : Nat) : Plain (Nat.toDigits 10 value) := by
  intro c hc
  have hdigit := Nat.isDigit_of_mem_toDigits (by decide) (by decide) hc
  rw [Char.isDigit_iff_toNat] at hdigit
  have hzero : '0'.toNat = 48 := rfl
  omega

theorem int_text_plain (value : Int) : Plain (intText value) := by
  unfold intText
  split
  · exact plain_cons (by decide) (to_digits_plain _)
  · exact to_digits_plain _

/-- Control characters are escaped. -/
theorem escape_plain (c : Char) : Plain (Json.escape c) := by
  have hpair : ∀ letter : Char, 32 ≤ letter.toNat → Plain ['\\', letter] := fun letter hletter =>
    plain_cons (by decide) (plain_cons hletter fun _ hc => absurd hc List.not_mem_nil)
  unfold Json.escape
  by_cases hquote : c = '"'
  · rw [if_pos hquote]
    exact hpair _ (by decide)
  by_cases hslash : c = '\\'
  · rw [if_neg hquote, if_pos hslash]
    exact hpair _ (by decide)
  rw [if_neg hquote, if_neg hslash]
  repeat' split
  · exact hpair _ (by decide)
  · exact hpair _ (by decide)
  · exact hpair _ (by decide)
  · exact hpair _ (by decide)
  · exact hpair _ (by decide)
  · have hhigh := @digit_char_plain (c.toNat / 16) (by omega)
    have hlow := @digit_char_plain (c.toNat % 16) (by omega)
    have hstart : Plain ['\\', 'u', '0', '0'] := by decide
    exact plain_append hstart
      (plain_cons hhigh (plain_cons hlow fun _ hc => absurd hc List.not_mem_nil))
  · rename_i hcontrol
    exact plain_cons (by omega) fun _ hc => absurd hc List.not_mem_nil

theorem quote_plain (value : String) : Plain (Json.quote value) := by
  refine plain_cons (by decide) (plain_append ?_ (by decide))
  intro c hc
  obtain ⟨source, _, hmem⟩ := List.mem_flatMap.mp hc
  exact escape_plain source c hmem

theorem mem_of_mem_keep_last {α : Type} {members : List (String × α)} {entry : String × α}
    (h : entry ∈ keepLast members) : entry ∈ members := by
  induction members with
  | nil => exact h
  | cons head rest ih =>
      obtain ⟨name, value⟩ := head
      unfold keepLast at h
      split at h
      · exact List.mem_cons_of_mem _ (ih h)
      · rcases List.mem_cons.mp h with rfl | hrest
        · exact List.mem_cons_self
        · exact List.mem_cons_of_mem _ (ih hrest)

theorem write_object_plain {members : List (String × List Char)}
    (h : ∀ entry ∈ members, Plain entry.2) : Plain (writeObject members) := by
  refine plain_append (plain_cons (by decide) (plain_intercalate (by decide) ?_)) (by decide)
  intro text htext
  obtain ⟨entry, hentry, rfl⟩ := List.mem_map.mp htext
  have hmem := mem_of_mem_keep_last ((List.mem_insertionSort _).mp hentry)
  exact plain_append (quote_plain entry.1) (plain_cons (by decide) (h entry hmem))

mutual

/-- No text has a control character. -/
theorem write_plain {float : UInt64 → List Char} (hfloat : ∀ bits, Plain (float bits)) :
    ∀ value : Value, Plain (value.write float)
  | .null => show Plain ['n', 'u', 'l', 'l'] by decide
  | .bool true => show Plain ['t', 'r', 'u', 'e'] by decide
  | .bool false => show Plain ['f', 'a', 'l', 's', 'e'] by decide
  | .number (.unsigned value) => to_digits_plain value.toNat
  | .number (.negative value) => int_text_plain value.toInt
  | .number (.float bits) => hfloat bits
  | .string value => quote_plain value
  | .array items =>
      plain_append (plain_cons (by decide)
        (plain_intercalate (by decide) (item_texts_plain hfloat items))) (by decide)
  | .object members => write_object_plain (member_texts_plain hfloat members)

theorem item_texts_plain {float : UInt64 → List Char} (hfloat : ∀ bits, Plain (float bits)) :
    ∀ items : List Value, ∀ text ∈ itemTexts float items, Plain text
  | [] => fun _ h => absurd h List.not_mem_nil
  | item :: rest => List.forall_mem_cons.mpr ⟨write_plain hfloat item, item_texts_plain hfloat rest⟩

theorem member_texts_plain {float : UInt64 → List Char} (hfloat : ∀ bits, Plain (float bits)) :
    ∀ members : List (String × Value), ∀ entry ∈ memberTexts float members, Plain entry.2
  | [] => fun _ h => absurd h List.not_mem_nil
  | (_, value) :: rest =>
      List.forall_mem_cons.mpr ⟨write_plain hfloat value, member_texts_plain hfloat rest⟩

end

/-! ## Bytes -/

/-- The bytes of a text. -/
def textBytes (text : List Char) : List UInt8 :=
  text.flatMap String.utf8EncodeChar

/-- An ASCII byte in the encoding of a character is the character. -/
theorem utf8_encode_char_ascii {c : Char} {byte : UInt8} (h : byte ∈ String.utf8EncodeChar c)
    (hascii : byte.toNat < 128) : byte.toNat = c.toNat := by
  have hcode : c.val.toNat = c.toNat := rfl
  unfold String.utf8EncodeChar at h
  dsimp only at h
  repeat' split at h
  all_goals
    simp only [List.mem_cons, List.not_mem_nil, or_false] at h
  · subst h
    rw [UInt8.toNat_ofNat'] at hascii ⊢
    omega
  · rcases h with rfl | rfl <;> rw [UInt8.toNat_ofNat'] at hascii <;> omega
  · rcases h with rfl | rfl | rfl <;> rw [UInt8.toNat_ofNat'] at hascii <;> omega
  · rcases h with rfl | rfl | rfl | rfl <;> rw [UInt8.toNat_ofNat'] at hascii <;> omega

/-- A text without control characters is a single line. -/
theorem newline_not_mem_bytes {text : List Char} (h : Plain text) :
    (10 : UInt8) ∉ textBytes text := by
  intro hmem
  obtain ⟨c, hc, hbyte⟩ := List.mem_flatMap.mp hmem
  have hcode : (10 : UInt8).toNat = c.toNat := utf8_encode_char_ascii hbyte (by decide)
  have hplain := h c hc
  have hten : (10 : UInt8).toNat = 10 := rfl
  omega

end Serde
