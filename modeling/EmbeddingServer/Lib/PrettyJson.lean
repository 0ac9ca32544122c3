import EmbeddingServer.Lib.Json
import Mathlib.Data.Nat.Cast.Basic
import Mathlib.Algebra.BigOperators.Group.List.Basic

/-!
# Indented JSON text

`Json.writePretty` is the text of a value with one item or field a line and two spaces for
each level. Compared with the compact text only white space is added: `size_write_pretty` says
how much, and `indentation` depends on the shape of the value only, not on its texts and
numbers.
-/

namespace Json

/-- The number of bytes of a text in UTF-8. -/
def textSize (text : List Char) : Nat :=
  (text.map Char.utf8Size).sum

@[simp] theorem text_size_nil : textSize [] = 0 := rfl

@[simp] theorem text_size_cons (c : Char) (text : List Char) :
    textSize (c :: text) = c.utf8Size + textSize text := by
  simp [textSize]

@[simp] theorem text_size_append (left right : List Char) :
    textSize (left ++ right) = textSize left + textSize right := by
  simp [textSize]

@[simp] theorem text_size_replicate (count : Nat) (c : Char) :
    textSize (List.replicate count c) = count * c.utf8Size := by
  simp [textSize]

/-- The end of a line and the indentation of the next. -/
def newline (depth : Nat) : List Char :=
  '\n' :: List.replicate (2 * depth) ' '

@[simp] theorem text_size_newline (depth : Nat) : textSize (newline depth) = 1 + 2 * depth := by
  have hspace : ' '.utf8Size = 1 := rfl
  have hfeed : '\n'.utf8Size = 1 := rfl
  rw [newline, text_size_cons, text_size_replicate, hspace, hfeed, Nat.mul_one]

mutual
/-- The text of a value at a level. -/
def writePretty (depth : Nat) : Json → List Char
  | .array [] => ['[', ']']
  | .array (item :: items) =>
      '[' :: (newline (depth + 1) ++ writePretty (depth + 1) item ++ writePrettyItems depth items)
  | .object [] => ['{', '}']
  | .object ((key, value) :: fields) =>
      '{' :: (newline (depth + 1) ++ quote key ++ ':' :: ' ' ::
        (writePretty (depth + 1) value ++ writePrettyFields depth fields))
  | value => write value

/-- The text of the items after the first, and the closing bracket on its line. -/
def writePrettyItems (depth : Nat) : List Json → List Char
  | [] => newline depth ++ [']']
  | item :: items =>
      ',' :: (newline (depth + 1) ++ writePretty (depth + 1) item ++ writePrettyItems depth items)

/-- The text of the fields after the first, and the closing brace on its line. -/
def writePrettyFields (depth : Nat) : List (String × Json) → List Char
  | [] => newline depth ++ ['}']
  | (key, value) :: fields =>
      ',' :: (newline (depth + 1) ++ quote key ++ ':' :: ' ' ::
        (writePretty (depth + 1) value ++ writePrettyFields depth fields))
end

mutual
/-- The white space that a value at a level is written with. -/
def indentation (depth : Nat) : Json → Nat
  | .array [] => 0
  | .array (item :: items) => indentationItems depth (item :: items) + (1 + 2 * depth)
  | .object [] => 0
  | .object (field :: fields) => indentationFields depth (field :: fields) + (1 + 2 * depth)
  | _ => 0

/-- The white space in front of and inside items. -/
def indentationItems (depth : Nat) : List Json → Nat
  | [] => 0
  | item :: items =>
      (1 + 2 * (depth + 1)) + indentation (depth + 1) item + indentationItems depth items

/-- The white space in front of and inside fields, with the space after each colon. -/
def indentationFields (depth : Nat) : List (String × Json) → Nat
  | [] => 0
  | (_, value) :: fields =>
      (1 + 2 * (depth + 1)) + 1 + indentation (depth + 1) value + indentationFields depth fields
end

mutual
/-- Indented text is the compact text and white space. -/
theorem size_write_pretty (depth : Nat) : ∀ value : Json,
    textSize (writePretty depth value) = textSize (write value) + indentation depth value
  | .null => rfl
  | .bool _ => rfl
  | .number _ => rfl
  | .string _ => rfl
  | .array [] => rfl
  | .array (item :: items) => by
      have hitem := size_write_pretty (depth + 1) item
      have hitems := size_write_pretty_items depth items
      simp only [writePretty, write, indentation, indentationItems, text_size_cons,
        text_size_append, text_size_newline]
      omega
  | .object [] => rfl
  | .object ((key, value) :: fields) => by
      have hvalue := size_write_pretty (depth + 1) value
      have hfields := size_write_pretty_fields depth fields
      have hspace : ' '.utf8Size = 1 := rfl
      simp only [writePretty, write, indentation, indentationFields, text_size_cons,
        text_size_append, text_size_newline]
      omega

/-- The closing bracket of an array stands on a line of its own. -/
theorem size_write_pretty_items (depth : Nat) : ∀ items : List Json,
    textSize (writePrettyItems depth items) =
      textSize (writeItems items) + indentationItems depth items + (1 + 2 * depth)
  | [] => by
      simp only [writePrettyItems, writeItems, indentationItems, text_size_cons, text_size_append,
        text_size_newline]
      omega
  | item :: items => by
      have hitem := size_write_pretty (depth + 1) item
      have hitems := size_write_pretty_items depth items
      simp only [writePrettyItems, writeItems, indentationItems, text_size_cons, text_size_append,
        text_size_newline]
      omega

/-- The closing brace of an object stands on a line of its own. -/
theorem size_write_pretty_fields (depth : Nat) : ∀ fields : List (String × Json),
    textSize (writePrettyFields depth fields) =
      textSize (writeFields fields) + indentationFields depth fields + (1 + 2 * depth)
  | [] => by
      simp only [writePrettyFields, writeFields, indentationFields, text_size_cons,
        text_size_append, text_size_newline]
      omega
  | (key, value) :: fields => by
      have hvalue := size_write_pretty (depth + 1) value
      have hfields := size_write_pretty_fields depth fields
      have hspace : ' '.utf8Size = 1 := rfl
      simp only [writePrettyFields, writeFields, indentationFields, text_size_cons,
        text_size_append, text_size_newline]
      omega
end

/-- Items of one shape are indented alike. -/
theorem indentation_items_map {α : Type*} {depth width : Nat} {f : α → Json}
    (h : ∀ item, indentation (depth + 1) (f item) = width) (items : List α) :
    indentationItems depth (items.map f) = items.length * (1 + 2 * (depth + 1) + width) := by
  induction items with
  | nil => simp [indentationItems]
  | cons item items ih =>
      rw [List.map_cons, indentationItems, h, ih, List.length_cons, Nat.add_one_mul items.length]
      omega

end Json
