import Mathlib.Algebra.Ring.Nat
import Mathlib.Data.List.Basic

/-!
# Texts as bytes and separated fields

The bytes of a text are its UTF-8 encoding. Two facts make framed encodings readable again:
a field without the separator byte is determined by what stands in front of the first
separator, and a field of fixed length by its length.
-/

namespace Bytes

/-- The list of a byte array is the list of its data. -/
theorem to_list_eq_data (bytes : ByteArray) : bytes.toList = bytes.data.toList := by
  have hloop : ∀ (count index : Nat) (done : List UInt8), count = bytes.size - index →
      ByteArray.toList.loop bytes index done = done.reverse ++ bytes.data.toList.drop index := by
    intro count
    induction count with
    | zero =>
        intro index done hcount
        have hend : bytes.data.toList.length ≤ index := by
          show bytes.size ≤ index
          omega
        rw [ByteArray.toList.loop, if_neg (by omega), List.drop_eq_nil_of_le hend,
          List.append_nil]
    | succ count ih =>
        intro index done hcount
        have hindex : index < bytes.size := by omega
        have hlength : index < bytes.data.toList.length := hindex
        rw [ByteArray.toList.loop, if_pos hindex, ih (index + 1) _ (by omega),
          List.drop_eq_getElem_cons hlength, List.reverse_cons, List.append_assoc]
        have hget : bytes.get! index = bytes.data.toList[index] := by
          show bytes.data[index]! = _
          rw [getElem!_pos bytes.data index hindex, Array.getElem_toList]
        rw [hget, List.singleton_append]
  have h := hloop _ 0 [] rfl
  simpa [ByteArray.toList] using h

/-- The bytes of a text, character by character. -/
theorem to_utf8_to_list (text : String) :
    text.toUTF8.toList = text.toList.flatMap String.utf8EncodeChar := by
  rw [to_list_eq_data, String.toUTF8_eq_toByteArray]
  conv_lhs => rw [← String.ofList_toList (s := text)]
  rw [String.toByteArray_ofList, List.utf8Encode, List.toList_data_toByteArray]

/-- The bytes determine the text. -/
theorem to_utf8_to_list_injective {left right : String}
    (h : left.toUTF8.toList = right.toUTF8.toList) : left = right := by
  rw [to_list_eq_data, to_list_eq_data, Array.toList_inj] at h
  exact String.toByteArray_inj.mp (ByteArray.ext h)

/-- The number of bytes of a text. -/
theorem length_to_utf8 (text : String) :
    text.toUTF8.toList.length = (text.toList.map Char.utf8Size).sum := by
  rw [to_utf8_to_list, List.length_flatMap]
  simp

/-- An ASCII character other than NUL does not produce a zero byte. -/
theorem zero_not_mem_utf8_encode_char {c : Char} (hpos : 0 < c.toNat) (hascii : c.toNat < 128) :
    (0 : UInt8) ∉ String.utf8EncodeChar c := by
  have hsize : c.utf8Size = 1 := by
    rw [Char.utf8Size_eq_one_iff]
    exact UInt32.le_iff_toNat_le.mpr (by show c.toNat ≤ 127; omega)
  rw [String.utf8EncodeChar_eq_singleton hsize, List.mem_singleton]
  intro h
  have hbyte : (0 : UInt8).toNat = c.val.toUInt8.toNat := congrArg UInt8.toNat h
  rw [UInt32.toNat_toUInt8] at hbyte
  have hval : 0 = c.toNat % 256 := hbyte
  omega

/-- A text of ASCII characters other than NUL has no zero byte. -/
theorem zero_not_mem_to_utf8 {text : String}
    (h : ∀ c ∈ text.toList, 0 < c.toNat ∧ c.toNat < 128) : (0 : UInt8) ∉ text.toUTF8.toList := by
  rw [to_utf8_to_list, List.mem_flatMap]
  rintro ⟨c, hc, hzero⟩
  exact zero_not_mem_utf8_encode_char (h c hc).1 (h c hc).2 hzero

/-- A field without the separator is determined by the bytes up to the first separator. -/
theorem separated_inj {α : Type} {separator : α} {left right rest other : List α}
    (hleft : separator ∉ left) (hright : separator ∉ right)
    (h : left ++ separator :: rest = right ++ separator :: other) :
    left = right ∧ rest = other := by
  induction left generalizing right with
  | nil =>
      cases right with
      | nil => exact ⟨rfl, (List.cons.inj h).2⟩
      | cons head right =>
          have hhead := (List.cons.inj h).1
          exact absurd (hhead ▸ List.mem_cons_self) hright
  | cons head left ih =>
      cases right with
      | nil =>
          have hhead := (List.cons.inj h).1
          exact absurd (hhead ▸ List.mem_cons_self) hleft
      | cons head' right =>
          rw [List.cons_append, List.cons_append, List.cons.injEq] at h
          rw [List.mem_cons, not_or] at hleft hright
          obtain ⟨htail, hrest⟩ := ih hleft.2 hright.2 h.2
          exact ⟨by rw [h.1, htail], hrest⟩

/-- A number below a power of 256 is determined by its digits to that base. -/
theorem eq_of_digits {count left right : Nat} (hleft : left < 256 ^ count)
    (hright : right < 256 ^ count)
    (h : ∀ index < count, left / 256 ^ index % 256 = right / 256 ^ index % 256) :
    left = right := by
  induction count generalizing left right with
  | zero =>
      rw [Nat.pow_zero] at hleft hright
      omega
  | succ count ih =>
      rw [Nat.pow_succ] at hleft hright
      have hlow := h 0 (by omega)
      rw [Nat.pow_zero, Nat.div_one, Nat.div_one] at hlow
      have hhigh : left / 256 = right / 256 := by
        apply ih (Nat.div_lt_of_lt_mul (by omega)) (Nat.div_lt_of_lt_mul (by omega))
        intro index hindex
        have hdigit := h (index + 1) (by omega)
        rw [Nat.pow_succ', ← Nat.div_div_eq_div_mul, ← Nat.div_div_eq_div_mul] at hdigit
        exact hdigit
      omega

end Bytes
