import Mathlib.Data.List.Nodup
import Mathlib.Data.List.Perm.Basic
import Mathlib.Logic.Function.Basic

/-!
# Layers of settings

A `Layer` gives values to some keys. `recordAll` fills one from the entries of a source: an
entry may be refused, may say nothing, or may mention a key, and no key may be mentioned
twice. Success and result depend on what the entries mention and not on their order:
`record_all_ok_iff` and `record_all_perm`.
-/

namespace Layers

variable {K V E ε : Type*}

/-- The values of one source. -/
abbrev Layer (K V : Type*) := K → Option V

/-- A layer that says nothing. -/
def none : Layer K V := fun _ => .none

/-- What the entries mention, in their order; an entry that is refused mentions nothing. -/
def mentions (read : E → Except ε (Option (K × V))) (entries : List E) : List (K × V) :=
  entries.filterMap fun entry => ((read entry).toOption).join

/-- A layer filled from another gives the old values and those mentioned. -/
def Extends (base : Layer K V) (mentioned : List (K × V)) (layer : Layer K V) : Prop :=
  ∀ key value, layer key = some value ↔ base key = some value ∨ (key, value) ∈ mentioned

section Mentions

variable {read : E → Except ε (Option (K × V))}

theorem mentions_cons_none {entry : E} {rest : List E} (h : read entry = .ok .none) :
    mentions read (entry :: rest) = mentions read rest := by
  simp [mentions, h, Except.toOption]

theorem mentions_cons_some {entry : E} {rest : List E} {key : K} {value : V}
    (h : read entry = .ok (some (key, value))) :
    mentions read (entry :: rest) = (key, value) :: mentions read rest := by
  simp [mentions, h, Except.toOption]

/-- Every mention comes from an entry. -/
theorem mem_mentions {entries : List E} {key : K} {value : V} :
    (key, value) ∈ mentions read entries ↔
      ∃ entry ∈ entries, read entry = .ok (some (key, value)) := by
  rw [mentions, List.mem_filterMap]
  refine exists_congr fun entry => and_congr_right fun _ => ?_
  cases read entry with
  | error error => simp [Except.toOption]
  | ok mention => simp [Except.toOption]

end Mentions

variable [DecidableEq K]

section Record

variable (read : E → Except ε (Option (K × V))) (duplicate : K → ε)

/-- Give a value to a key that has none yet. -/
def assign (layer : Layer K V) (key : K) (value : V) : Except ε (Layer K V) :=
  if (layer key).isSome then .error (duplicate key)
  else .ok (Function.update layer key (some value))

/-- Add what an entry mentions. -/
def record (layer : Layer K V) (entry : E) : Except ε (Layer K V) :=
  (read entry).bind fun mention =>
    match mention with
    | .none => .ok layer
    | some (key, value) => assign duplicate layer key value

/-- Add what a list of entries mentions. -/
def recordAll : Layer K V → List E → Except ε (Layer K V)
  | layer, [] => .ok layer
  | layer, entry :: rest => (record read duplicate layer entry).bind fun layer =>
      recordAll layer rest

end Record

variable {read : E → Except ε (Option (K × V))} {duplicate : K → ε}

/-- Recording one list after another. -/
theorem record_all_append (layer : Layer K V) (first second : List E) :
    recordAll read duplicate layer (first ++ second) =
      (recordAll read duplicate layer first).bind fun layer =>
        recordAll read duplicate layer second := by
  induction first generalizing layer with
  | nil => rfl
  | cons entry rest ih =>
      rw [List.cons_append, recordAll, recordAll]
      cases record read duplicate layer entry with
      | error error => rfl
      | ok layer => exact ih layer

/-- The keys that are free after an assignment. -/
theorem update_free_iff {base : Layer K V} {key : K} {value : V} {mentioned : List (K × V)} :
    (∀ mention ∈ mentioned, Function.update base key (some value) mention.1 = .none) ↔
      key ∉ mentioned.map Prod.fst ∧ ∀ mention ∈ mentioned, base mention.1 = .none := by
  constructor
  · intro hfree
    have hkey : ∀ mention ∈ mentioned, mention.1 ≠ key := by
      intro mention hmention heq
      have hnone := hfree mention hmention
      rw [heq, Function.update_self] at hnone
      cases hnone
    refine ⟨fun hmem => ?_, fun mention hmention => ?_⟩
    · obtain ⟨mention, hmention, heq⟩ := List.mem_map.mp hmem
      exact hkey mention hmention heq
    · rw [← hfree mention hmention, Function.update_of_ne (hkey mention hmention)]
  · rintro ⟨hkey, hfree⟩ mention hmention
    have hne : mention.1 ≠ key := fun heq => hkey (List.mem_map.mpr ⟨mention, hmention, heq⟩)
    rw [Function.update_of_ne hne]
    exact hfree mention hmention

/-- An assignment is a mention in front of the others. -/
theorem extends_update_iff {base layer : Layer K V} {key : K} {value : V}
    {mentioned : List (K × V)} (hbase : base key = .none) :
    Extends (Function.update base key (some value)) mentioned layer ↔
      Extends base ((key, value) :: mentioned) layer := by
  have hvalue : ∀ other found, Function.update base key (some value) other = some found ↔
      base other = some found ∨ (other, found) = (key, value) := by
    intro other found
    by_cases heq : other = key
    · subst heq
      simp [hbase, eq_comm]
    · simp [heq]
  simp only [Extends, hvalue, List.mem_cons, or_assoc]

/-- Recording succeeds exactly when no entry is refused and no key is mentioned twice or has a
value already. -/
theorem record_all_from {base layer : Layer K V} {entries : List E} :
    recordAll read duplicate base entries = .ok layer ↔
      (∀ entry ∈ entries, ∃ mention, read entry = .ok mention) ∧
      ((mentions read entries).map Prod.fst).Nodup ∧
      (∀ mention ∈ mentions read entries, base mention.1 = .none) ∧
      Extends base (mentions read entries) layer := by
  induction entries generalizing base with
  | nil =>
      have hempty : mentions read ([] : List E) = [] := rfl
      rw [recordAll, hempty]
      constructor
      · intro h
        cases h
        simp [Extends]
      · rintro ⟨_, _, _, hext⟩
        congr
        funext key
        rw [Option.ext_iff]
        intro value
        simpa using (hext key value).symm
  | cons entry rest ih =>
      rw [recordAll]
      cases hread : read entry with
      | error error =>
          constructor
          · intro h
            rw [record, hread] at h
            cases h
          · rintro ⟨hall, _⟩
            obtain ⟨mention, hmention⟩ := hall entry List.mem_cons_self
            rw [hread] at hmention
            cases hmention
      | ok mention =>
          have hfirst : ∃ mention, read entry = .ok mention := ⟨mention, hread⟩
          rw [List.forall_mem_cons]
          cases mention with
          | none =>
              rw [mentions_cons_none hread]
              have hrecord : record read duplicate base entry = .ok base := by
                rw [record, hread]
                rfl
              rw [hrecord]
              show recordAll read duplicate base rest = _ ↔ _
              rw [ih]
              simp only [hread, Except.ok.injEq, exists_eq', true_and]
          | some mention =>
              obtain ⟨key, value⟩ := mention
              rw [mentions_cons_some hread]
              -- A key that has a value is refused; the rest is recorded over the new one.
              by_cases hbase : (base key).isSome
              · have hrecord : record read duplicate base entry = .error (duplicate key) := by
                  rw [record, hread]
                  simp [Except.bind, assign, hbase]
                rw [hrecord]
                constructor
                · intro h
                  cases h
                · rintro ⟨_, _, hfree, _⟩
                  have hnone := hfree (key, value) List.mem_cons_self
                  rw [show base key = .none from hnone] at hbase
                  cases hbase
              · rw [Option.not_isSome_iff_eq_none] at hbase
                have hrecord : record read duplicate base entry =
                    .ok (Function.update base key (some value)) := by
                  rw [record, hread]
                  simp [Except.bind, assign, hbase]
                rw [hrecord]
                show recordAll read duplicate (Function.update base key (some value)) rest = _ ↔ _
                rw [ih, List.map_cons, List.nodup_cons, List.forall_mem_cons, update_free_iff,
                  extends_update_iff hbase]
                simp only [hread, Except.ok.injEq, exists_eq', true_and, hbase]
                tauto

/-- Recording from nothing. -/
theorem record_all_ok_iff {layer : Layer K V} {entries : List E} :
    recordAll read duplicate none entries = .ok layer ↔
      (∀ entry ∈ entries, ∃ mention, read entry = .ok mention) ∧
      ((mentions read entries).map Prod.fst).Nodup ∧
      ∀ key value, layer key = some value ↔ (key, value) ∈ mentions read entries := by
  rw [record_all_from]
  simp [Extends, none]

/-- The order of the entries does not matter. -/
theorem record_all_perm {layer : Layer K V} {entries entries' : List E}
    (hperm : entries.Perm entries') (h : recordAll read duplicate none entries = .ok layer) :
    recordAll read duplicate none entries' = .ok layer := by
  obtain ⟨hread, hnodup, hlayer⟩ := record_all_ok_iff.mp h
  have hmentions : (mentions read entries).Perm (mentions read entries') := hperm.filterMap _
  refine record_all_ok_iff.mpr ⟨?_, ?_, ?_⟩
  · intro entry hentry
    exact hread entry (hperm.mem_iff.mpr hentry)
  · exact (hmentions.map Prod.fst).nodup_iff.mp hnodup
  · intro key value
    rw [hlayer, hmentions.mem_iff]

/-- Only what the entries mention matters. -/
theorem record_all_of_mentions {layer : Layer K V} {entries entries' : List E}
    (h : recordAll read duplicate none entries = .ok layer)
    (hread : ∀ entry ∈ entries', ∃ mention, read entry = .ok mention)
    (hsame : mentions read entries' = mentions read entries) :
    recordAll read duplicate none entries' = .ok layer := by
  obtain ⟨_, hnodup, hlayer⟩ := record_all_ok_iff.mp h
  rw [← hsame] at hnodup hlayer
  exact record_all_ok_iff.mpr ⟨hread, hnodup, hlayer⟩

/-- An entry takes the place of those that mention its key. -/
theorem record_all_replace {layer : Layer K V} {entries : List E} {keep : E → Bool} {entry : E}
    {key : K} {value : V} (h : recordAll read duplicate none entries = .ok layer)
    (hnew : read entry = .ok (some (key, value)))
    (hkeep : ∀ old ∈ entries, ∀ other found, read old = .ok (some (other, found)) →
      (keep old = true ↔ other ≠ key)) :
    recordAll read duplicate none (entries.filter keep ++ [entry]) =
      .ok (Function.update layer key (some value)) := by
  obtain ⟨hread, hnodup, hlayer⟩ := record_all_ok_iff.mp h
  have hlast : mentions read (entries.filter keep ++ [entry]) =
      mentions read (entries.filter keep) ++ [(key, value)] := by
    simp [mentions, hnew, Except.toOption]
  have hkept : ∀ other found, (other, found) ∈ mentions read (entries.filter keep) ↔
      (other, found) ∈ mentions read entries ∧ other ≠ key := by
    intro other found
    rw [mem_mentions, mem_mentions]
    constructor
    · rintro ⟨old, hold, hmention⟩
      obtain ⟨hmem, hkeeps⟩ := List.mem_filter.mp hold
      exact ⟨⟨old, hmem, hmention⟩, (hkeep old hmem other found hmention).mp hkeeps⟩
    · rintro ⟨⟨old, hmem, hmention⟩, hne⟩
      exact ⟨old, List.mem_filter.mpr ⟨hmem, (hkeep old hmem other found hmention).mpr hne⟩,
        hmention⟩
  refine record_all_ok_iff.mpr ⟨?_, ?_, ?_⟩
  · intro old hold
    cases List.mem_append.mp hold with
    | inl hold => exact hread old (List.mem_of_mem_filter hold)
    | inr hold => exact ⟨_, by rw [List.mem_singleton.mp hold, hnew]⟩
  · rw [hlast, List.map_append, List.map_singleton, List.nodup_append]
    have hsublist : (mentions read (entries.filter keep)).Sublist (mentions read entries) :=
      List.filter_sublist.filterMap _
    refine ⟨(hsublist.map _).nodup hnodup, List.nodup_singleton _, ?_⟩
    intro other hother last hlast heq
    obtain ⟨mention, hmention, rfl⟩ := List.mem_map.mp hother
    rw [List.mem_singleton.mp hlast] at heq
    exact ((hkept mention.1 mention.2).mp hmention).2 heq
  · intro other found
    rw [hlast, List.mem_append, hkept, List.mem_singleton, Prod.mk.injEq]
    by_cases hother : other = key
    · subst hother
      simp [eq_comm]
    · rw [Function.update_of_ne hother, hlayer]
      simp [hother]

end Layers
