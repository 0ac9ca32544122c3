import Mathlib.Data.List.Basic

/-!
# Decoding of JSON values

`Value` is a JSON value as a reader buffers it: the members of an object in the order written,
repeated ones included. `Value.collapse` is what is left when it becomes a map, where the last
member of a name wins. `deriveStruct` is the decoding of a record with named fields that
refuses unknown and repeated ones: it takes an object by names, and an array by positions.
-/

namespace Serde

/-- A number: an unsigned or a negative word, or a binary fraction by its bits. -/
inductive Number where
  | unsigned (value : UInt64)
  | negative (value : Int64)
  | float (bits : UInt64)
  deriving DecidableEq, Repr

/-- A buffered JSON value. -/
inductive Value where
  | null
  | bool (value : Bool)
  | number (value : Number)
  | string (value : String)
  | array (items : List Value)
  | object (members : List (String × Value))

/-- Members of which no later one has the same name. -/
def keepLast {α : Type} : List (String × α) → List (String × α)
  | [] => []
  | (name, value) :: rest =>
      if rest.any fun member => member.1 = name then keepLast rest
      else (name, value) :: keepLast rest

mutual

/-- The value with maps for objects. -/
def Value.collapse : Value → Value
  | .array items => .array (collapseItems items)
  | .object members => .object (keepLast (collapseMembers members))
  | value => value

/-- `Value.collapse` on every item. -/
def collapseItems : List Value → List Value
  | [] => []
  | item :: rest => item.collapse :: collapseItems rest

/-- `Value.collapse` on every member. -/
def collapseMembers : List (String × Value) → List (String × Value)
  | [] => []
  | (name, value) :: rest => (name, value.collapse) :: collapseMembers rest

end

/-- A field of a record: its name, and whether it has a default. -/
structure Field where
  name : String
  optional : Bool

/-- The first member of the name. -/
def member {α : Type} (members : List (String × α)) (name : String) : Option α :=
  (members.find? fun entry => entry.1 = name).map Prod.snd

/-- A field by its name; the inner option is absent where the default is taken. -/
def Field.named (members : List (String × Value)) (field : Field) : Option (Option Value) :=
  match member members field.name with
  | some value => some (some value)
  | none => if field.optional then some none else none

/-- The fields by their positions. -/
def positional : List Field → List Value → Option (List (Option Value))
  | [], [] => some []
  | [], _ :: _ => none
  | field :: fields, [] =>
      if field.optional then (positional fields []).map (none :: ·) else none
  | _ :: fields, item :: items => (positional fields items).map (some item :: ·)

/-- The fields of a record, in the order of its declaration. -/
def deriveStruct (fields : List Field) : Value → Option (List (Option Value))
  | .object members =>
      if (members.map Prod.fst).Nodup ∧
          ∀ entry ∈ members, entry.1 ∈ fields.map Field.name then
        fields.mapM (Field.named members)
      else none
  | .array items => positional fields items
  | _ => none

/-- A string. -/
def Value.asString : Value → Option String
  | .string value => some value
  | _ => none

/-- A map. -/
def Value.asMap : Value → Option (List (String × Value))
  | .object members => some members
  | _ => none

/-- An optional value: absent, null, or one that decodes. -/
def optionally {α : Type} (decode : Value → Option α) : Option Value → Option (Option α)
  | none => some none
  | some .null => some none
  | some value => (decode value).map some

/-- A required value. -/
def required {α : Type} (decode : Value → Option α) (field : Option Value) : Option α :=
  field.bind decode

/-- A field by its name is its member, or absent where it has a default. -/
theorem Field.named_eq_some {members : List (String × Value)} {field : Field}
    {value : Option Value} :
    field.named members = some value ↔
      value = member members field.name ∧ (value = none → field.optional = true) := by
  unfold Field.named
  cases hmember : member members field.name with
  | none =>
      dsimp only
      by_cases hoptional : field.optional = true
      · rw [if_pos hoptional, Option.some.injEq]
        constructor
        · rintro rfl
          exact ⟨rfl, fun _ => hoptional⟩
        · rintro ⟨rfl, _⟩
          rfl
      · rw [if_neg hoptional]
        constructor
        · intro h
          cases h
        · rintro ⟨rfl, hdefault⟩
          exact absurd (hdefault rfl) hoptional
  | some given =>
      dsimp only
      rw [Option.some.injEq]
      constructor
      · rintro rfl
        exact ⟨rfl, fun h => by cases h⟩
      · rintro ⟨rfl, _⟩
        rfl

/-- The record of an object without unknown and repeated members. -/
theorem derive_struct_object_eq_some {fields : List Field} {members : List (String × Value)}
    {values : List (Option Value)} :
    deriveStruct fields (.object members) = some values ↔
      ((members.map Prod.fst).Nodup ∧ ∀ entry ∈ members, entry.1 ∈ fields.map Field.name) ∧
        fields.mapM (Field.named members) = some values := by
  show (if _ then _ else none) = some values ↔ _
  split
  · rename_i hstrict
    exact ⟨fun h => ⟨hstrict, h⟩, And.right⟩
  · rename_i hloose
    constructor
    · intro h
      cases h
    · intro h
      exact absurd h.1 hloose

end Serde
