import EmbeddingServer.Lib.Serde
import Mathlib.Algebra.Ring.Nat

/-!
# Decoding of fields

The decoders of field types beside strings and maps, and what becomes of them when a value was
turned into maps before (`Value.collapse`): a value that decodes still decodes to the same
(`Stable`), and a record keeps its fields (`derive_struct_collapse`).
-/

namespace Serde

variable {α : Type}

/-- A truth value. -/
def Value.asBool : Value → Option Bool
  | .bool value => some value
  | _ => none

/-- An unsigned number of so many bits. -/
def Value.asUnsigned (bits : Nat) : Value → Option Nat
  | .number (.unsigned value) => if value.toNat < 2 ^ bits then some value.toNat else none
  | _ => none

/-- A list of strings. -/
def Value.asStrings : Value → Option (List String)
  | .array items => items.mapM Value.asString
  | _ => none

/-- A unit variant, by its name or as the only member of an object, with null. -/
def Value.asVariant (variants : List (String × α)) : Value → Option α
  | .string name => member variants name
  | .object [(name, .null)] => member variants name
  | _ => none

/-- A value with a default. -/
def defaulted (default : α) (decode : Value → Option α) : Option Value → Option α
  | none => some default
  | some value => decode value

theorem as_unsigned_mono {small large number : Nat} {value : Value} (hsize : small ≤ large)
    (h : value.asUnsigned small = some number) : value.asUnsigned large = some number := by
  unfold Value.asUnsigned at h ⊢
  split at h
  · rename_i word
    split at h
    · rename_i hword
      have hlarge := Nat.pow_le_pow_right (show 0 < 2 by omega) hsize
      show (if _ then _ else _) = _
      rw [if_pos (by omega)]
      exact h
    · cases h
  · cases h

theorem as_unsigned_lt {bits number : Nat} {value : Value}
    (h : value.asUnsigned bits = some number) :
    number < 2 ^ bits := by
  unfold Value.asUnsigned at h
  split at h
  · split at h
    · rename_i hword
      cases h
      exact hword
    · cases h
  · cases h

/-- What decodes does so with maps for objects as well. -/
def Stable (decode : Value → Option α) : Prop :=
  ∀ value decoded, decode value = some decoded → decode value.collapse = some decoded

theorem as_string_stable : Stable Value.asString := by
  intro value decoded h
  cases value with
  | string text => exact h
  | null | bool _ | number _ | array _ | object _ => cases h

theorem as_bool_stable : Stable Value.asBool := by
  intro value decoded h
  cases value with
  | bool flag => exact h
  | null | number _ | string _ | array _ | object _ => cases h

theorem as_unsigned_stable (bits : Nat) : Stable (Value.asUnsigned bits) := by
  intro value decoded h
  cases value with
  | number number => exact h
  | null | bool _ | string _ | array _ | object _ => cases h

/-- Strings are their own maps. -/
theorem map_m_as_string_collapse {items : List Value} {texts : List String}
    (h : items.mapM Value.asString = some texts) :
    (collapseItems items).mapM Value.asString = some texts := by
  induction items generalizing texts with
  | nil => exact h
  | cons item rest ih =>
      rw [List.mapM_cons] at h
      obtain ⟨text, htext, h⟩ := Option.bind_eq_some_iff.mp h
      obtain ⟨others, hothers, h⟩ := Option.bind_eq_some_iff.mp h
      show List.mapM _ (item.collapse :: collapseItems rest) = _
      rw [List.mapM_cons, as_string_stable item text htext, ih hothers]
      exact h

theorem as_strings_stable : Stable Value.asStrings := by
  intro value decoded h
  cases value with
  | array items => exact map_m_as_string_collapse h
  | null | bool _ | number _ | string _ | object _ => cases h

/-- A variant is its name, or an object with it. -/
theorem as_variant_eq_some {variants : List (String × α)} {value : Value} {decoded : α} :
    value.asVariant variants = some decoded ↔ ∃ name,
      (value = .string name ∨ value = .object [(name, .null)]) ∧
        member variants name = some decoded := by
  constructor
  · intro h
    unfold Value.asVariant at h
    split at h
    · exact ⟨_, .inl rfl, h⟩
    · exact ⟨_, .inr rfl, h⟩
    · cases h
  · intro h
    obtain ⟨name, rfl | rfl, hname⟩ := h
    · exact hname
    · exact hname

theorem as_variant_stable (variants : List (String × α)) : Stable (Value.asVariant variants) := by
  intro value decoded h
  obtain ⟨name, rfl | rfl, hname⟩ := as_variant_eq_some.mp h
  · exact hname
  · exact hname

/-- An optional value is absent or null, or it decodes. -/
theorem optionally_eq_some {decode : Value → Option α} {field : Option Value}
    {result : Option α} :
    optionally decode field = some result ↔
      ((field = none ∨ field = some .null) ∧ result = none) ∨
        ∃ value decoded, field = some value ∧ value ≠ .null ∧ decode value = some decoded ∧
          result = some decoded := by
  unfold optionally
  split
  · simp [eq_comm]
  · simp [eq_comm]
  · rename_i value hnull
    have hvalue : value ≠ .null := fun h => hnull (h ▸ rfl)
    rw [Option.map_eq_some_iff]
    constructor
    · intro h
      obtain ⟨decoded, hdecoded, hresult⟩ := h
      exact .inr ⟨value, decoded, rfl, hvalue, hdecoded, hresult.symm⟩
    · intro h
      rcases h with ⟨habsent | hnull, _⟩ | ⟨_, decoded, hsame, _, hdecoded, hresult⟩
      · cases habsent
      · exact absurd (Option.some.inj hnull) hvalue
      · cases hsame
        exact ⟨decoded, hdecoded, hresult.symm⟩

/-- A decoder that takes more takes more optional values. -/
theorem optionally_mono {decode wider : Value → Option α} {field : Option Value}
    {result : Option α} (hwider : ∀ value decoded, decode value = some decoded →
      wider value = some decoded) (h : optionally decode field = some result) :
    optionally wider field = some result := by
  rcases optionally_eq_some.mp h with habsent | ⟨value, decoded, hfield, hnull, hdecoded, hresult⟩
  · exact optionally_eq_some.mpr (.inl habsent)
  · exact optionally_eq_some.mpr
      (.inr ⟨value, decoded, hfield, hnull, hwider value decoded hdecoded, hresult⟩)

section

variable {decode : Value → Option α} (hstable : Stable decode) {field : Option Value}

include hstable

theorem required_collapse {decoded : α} (h : required decode field = some decoded) :
    required decode (field.map Value.collapse) = some decoded := by
  obtain ⟨value, rfl, hvalue⟩ := Option.bind_eq_some_iff.mp h
  exact hstable value decoded hvalue

theorem defaulted_collapse {default decoded : α}
    (h : defaulted default decode field = some decoded) :
    defaulted default decode (field.map Value.collapse) = some decoded := by
  cases field with
  | none => exact h
  | some value => exact hstable value decoded h

/-- A decoder that knows no null is stable on optional values. -/
theorem optionally_collapse {decoded : Option α} (hnull : decode .null = none)
    (h : optionally decode field = some decoded) :
    optionally decode (field.map Value.collapse) = some decoded := by
  rcases optionally_eq_some.mp h with ⟨rfl | rfl, hdecoded⟩ | ⟨value, inner, rfl, _, hinner, rfl⟩
  · exact optionally_eq_some.mpr (.inl ⟨.inl rfl, hdecoded⟩)
  · exact optionally_eq_some.mpr (.inl ⟨.inr rfl, hdecoded⟩)
  · have hcollapsed := hstable value inner hinner
    refine optionally_eq_some.mpr (.inr ⟨value.collapse, inner, rfl, ?_, hcollapsed, rfl⟩)
    intro hsame
    rw [hsame, hnull] at hcollapsed
    cases hcollapsed

end

/-! ## Records -/

theorem collapse_members_eq_map (members : List (String × Value)) :
    collapseMembers members = members.map fun entry => (entry.1, entry.2.collapse) := by
  induction members with
  | nil => rfl
  | cons entry rest ih =>
      show (entry.1, entry.2.collapse) :: collapseMembers rest = _
      rw [ih]
      rfl

theorem collapse_members_names (members : List (String × Value)) :
    (collapseMembers members).map Prod.fst = members.map Prod.fst := by
  rw [collapse_members_eq_map, List.map_map]
  rfl

/-- Members without repetition are all kept. -/
theorem keep_last_of_nodup {members : List (String × α)} (h : (members.map Prod.fst).Nodup) :
    keepLast members = members := by
  induction members with
  | nil => rfl
  | cons entry rest ih =>
      rw [List.map_cons, List.nodup_cons] at h
      have hfirst : ¬ (rest.any fun other => other.1 = entry.1) = true := by
        rw [List.any_eq_true]
        intro hmem
        obtain ⟨other, hother, hname⟩ := hmem
        exact h.1 (List.mem_map.mpr ⟨other, hother, of_decide_eq_true hname⟩)
      show (if _ then _ else _) = _
      rw [if_neg hfirst, ih h.2]

theorem member_collapse (members : List (String × Value)) (name : String) :
    member (collapseMembers members) name = (member members name).map Value.collapse := by
  unfold member
  rw [collapse_members_eq_map, List.find?_map, Option.map_map, Option.map_map]
  rfl

theorem named_collapse (members : List (String × Value)) (field : Field) :
    field.named (collapseMembers members) =
      (field.named members).map (Option.map Value.collapse) := by
  unfold Field.named
  rw [member_collapse]
  cases member members field.name with
  | some value => rfl
  | none =>
      show (if _ then _ else _) = Option.map _ (if _ then _ else _)
      split <;> rfl

theorem map_m_named_collapse (members : List (String × Value)) (fields : List Field) :
    fields.mapM (Field.named (collapseMembers members)) =
      (fields.mapM (Field.named members)).map (List.map (Option.map Value.collapse)) := by
  induction fields with
  | nil => rfl
  | cons field rest ih =>
      rw [List.mapM_cons, List.mapM_cons, named_collapse, ih]
      cases field.named members with
      | none => rfl
      | some first =>
          cases rest.mapM (Field.named members) with
          | none => rfl
          | some others => rfl

theorem positional_collapse (fields : List Field) (items : List Value) :
    positional fields (collapseItems items) =
      (positional fields items).map (List.map (Option.map Value.collapse)) := by
  induction fields generalizing items with
  | nil => cases items <;> rfl
  | cons field rest ih =>
      cases items with
      | nil =>
          show (if _ then _ else _) = Option.map _ (if _ then _ else _)
          split
          · have hrest := ih []
            cases hpositional : positional rest [] with
            | none => rfl
            | some others =>
                rw [hpositional] at hrest
                have hsame : others = others.map (Option.map Value.collapse) :=
                  Option.some.inj (hpositional.symm.trans hrest)
                show some (none :: others) = some (none :: others.map _)
                rw [← hsame]
          · rfl
      | cons item items =>
          show (positional rest (collapseItems items)).map _ = ((positional rest items).map _).map _
          rw [ih, Option.map_map, Option.map_map]
          rfl

/-- The fields of an object are its members. -/
theorem map_m_named_eq {members : List (String × Value)} {fields : List Field}
    {values : List (Option Value)} (h : fields.mapM (Field.named members) = some values) :
    values = fields.map fun field => member members field.name := by
  induction fields generalizing values with
  | nil =>
      cases h
      rfl
  | cons field rest ih =>
      rw [List.mapM_cons] at h
      obtain ⟨first, hfirst, h⟩ := Option.bind_eq_some_iff.mp h
      obtain ⟨others, hothers, h⟩ := Option.bind_eq_some_iff.mp h
      cases h
      rw [List.map_cons, ← ih hothers, (Field.named_eq_some.mp hfirst).1]

/-- An object with all required members has the fields. -/
theorem map_m_named_of_required {members : List (String × Value)} {fields : List Field}
    (h : ∀ field ∈ fields, field.optional = true ∨ member members field.name ≠ none) :
    fields.mapM (Field.named members) =
      some (fields.map fun field => member members field.name) := by
  induction fields with
  | nil => rfl
  | cons field rest ih =>
      rw [List.forall_mem_cons] at h
      have hfield : field.named members = some (member members field.name) :=
        Field.named_eq_some.mpr ⟨rfl, fun hnone => h.1.resolve_right fun hsome => hsome hnone⟩
      rw [List.mapM_cons, hfield, ih h.2]
      rfl

theorem member_ne_none {members : List (String × α)} {entry : String × α}
    (h : entry ∈ members) : member members entry.1 ≠ none := by
  unfold member
  rw [ne_eq, Option.map_eq_none_iff, List.find?_eq_none]
  exact fun hnone => hnone entry h (decide_eq_true rfl)

/-- A name that an object may not have is not the name of a member. -/
theorem member_eq_none {members : List (String × α)} {names : List String} {name : String}
    (hknown : ∀ entry ∈ members, entry.1 ∈ names) (hname : name ∉ names) :
    member members name = none := by
  unfold member
  rw [Option.map_eq_none_iff, List.find?_eq_none]
  intro entry hentry hsame
  exact hname (of_decide_eq_true hsame ▸ hknown entry hentry)

/-- The fields of an array are its items, and after them the defaults. -/
theorem positional_eq {fields : List Field} {items : List Value} {values : List (Option Value)}
    (h : positional fields items = some values) :
    ∃ count, values = items.map some ++ List.replicate count none := by
  induction fields generalizing items values with
  | nil =>
      cases items with
      | nil =>
          cases h
          exact ⟨0, rfl⟩
      | cons item items => cases h
  | cons field rest ih =>
      cases items with
      | nil =>
          change (if _ then _ else _) = some values at h
          split at h
          · obtain ⟨others, hothers, rfl⟩ := Option.map_eq_some_iff.mp h
            obtain ⟨count, rfl⟩ := ih hothers
            exact ⟨count + 1, rfl⟩
          · cases h
      | cons item items =>
          obtain ⟨others, hothers, rfl⟩ := Option.map_eq_some_iff.mp h
          obtain ⟨count, rfl⟩ := ih hothers
          exact ⟨count, rfl⟩

/-- A record that decodes has the same fields with maps for objects. -/
theorem derive_struct_collapse {fields : List Field} {value : Value}
    {values : List (Option Value)} (h : deriveStruct fields value = some values) :
    deriveStruct fields value.collapse = some (values.map (Option.map Value.collapse)) := by
  cases value with
  | object members =>
      obtain ⟨⟨hnodup, hknown⟩, hvalues⟩ := derive_struct_object_eq_some.mp h
      have hnames := collapse_members_names members
      show deriveStruct fields (.object (keepLast (collapseMembers members))) = _
      rw [keep_last_of_nodup (hnames ▸ hnodup), derive_struct_object_eq_some, map_m_named_collapse,
        hvalues]
      refine ⟨⟨hnames ▸ hnodup, ?_⟩, rfl⟩
      intro entry hentry
      have hname : entry.1 ∈ members.map Prod.fst := hnames ▸ List.mem_map_of_mem hentry
      obtain ⟨source, hsource, hsame⟩ := List.mem_map.mp hname
      exact hsame ▸ hknown source hsource
  | array items =>
      show positional fields (collapseItems items) = _
      rw [positional_collapse, show positional fields items = some values from h]
      rfl
  | null | bool _ | number _ | string _ => cases h

end Serde
