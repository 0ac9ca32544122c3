import Mathlib.Data.List.Nodup
import Mathlib.Logic.Function.Basic

/-!
# Maps filled from a list that may not repeat a key

`insertNew` adds an entry to a map and refuses a key that is there already; `insertAll` does so for
a list. It succeeds exactly if the keys are new and distinct, and the map then holds what it held
and the entries.
-/

namespace Directory

variable {κ ν : Type} [DecidableEq κ]

/-- Add an entry under a new key. -/
def insertNew (map : κ → Option ν) (entry : κ × ν) : Option (κ → Option ν) :=
  if (map entry.1).isSome then none else some (Function.update map entry.1 (some entry.2))

/-- Add the entries one after the other. -/
def insertAll (map : κ → Option ν) (entries : List (κ × ν)) : Option (κ → Option ν) :=
  entries.foldlM insertNew map

variable {map filled : κ → Option ν} {entries : List (κ × ν)}

/-- What the entries say about a key, before what the map says. -/
def overlay (entries : List (κ × ν)) (map : κ → Option ν) (key : κ) : Option ν :=
  ((entries.find? fun entry => entry.1 = key).map Prod.snd).or (map key)

@[simp]
theorem insert_all_nil : insertAll map [] = some map :=
  rfl

theorem insert_all_cons (entry : κ × ν) :
    insertAll map (entry :: entries) =
      if (map entry.1).isSome then none
      else insertAll (Function.update map entry.1 (some entry.2)) entries := by
  unfold insertAll insertNew
  rw [List.foldlM_cons]
  split <;> rfl

/-- The list can be added if its keys are distinct and new. -/
theorem insert_all_eq_some_iff :
    insertAll map entries = some filled ↔
      (entries.map Prod.fst).Nodup ∧ (∀ entry ∈ entries, map entry.1 = none) ∧
        filled = overlay entries map := by
  induction entries generalizing map with
  | nil =>
      rw [insert_all_nil, Option.some.injEq]
      constructor
      · rintro rfl
        exact ⟨List.nodup_nil, fun _ hmem => absurd hmem List.not_mem_nil, rfl⟩
      · rintro ⟨_, _, rfl⟩
        rfl
  | cons entry rest ih =>
      obtain ⟨key, value⟩ := entry
      rw [insert_all_cons, List.map_cons, List.nodup_cons]
      cases hkey : map key with
      | some old =>
          rw [Option.isSome_some, if_pos rfl]
          constructor
          · intro h
            cases h
          · intro h
            have hnew := h.2.1 (key, value) List.mem_cons_self
            rw [hkey] at hnew
            cases hnew
      | none =>
          rw [Option.isSome_none, if_neg Bool.false_ne_true, ih]
          -- the entries behind the first are new to the updated map: their keys differ from its key
          have hfresh : (∀ entry ∈ rest, Function.update map key (some value) entry.1 = none) ↔
              key ∉ rest.map Prod.fst ∧ ∀ entry ∈ rest, map entry.1 = none := by
            constructor
            · intro h
              refine ⟨fun hmem => ?_, fun entry hmem => ?_⟩
              · obtain ⟨entry, hentry, rfl⟩ := List.mem_map.mp hmem
                have hnone := h entry hentry
                rw [Function.update_self] at hnone
                cases hnone
              · have hnone := h entry hmem
                by_cases heq : entry.1 = key
                · rw [heq, Function.update_self] at hnone
                  cases hnone
                · rwa [Function.update_of_ne heq] at hnone
            · intro h entry hmem
              have hne : entry.1 ≠ key :=
                fun heq => h.1 (heq ▸ List.mem_map_of_mem hmem)
              rw [Function.update_of_ne hne, h.2 entry hmem]
          have hoverlay : key ∉ rest.map Prod.fst →
              overlay rest (Function.update map key (some value)) =
                overlay ((key, value) :: rest) map := by
            intro hnot
            funext other
            unfold overlay
            rw [List.find?_cons]
            by_cases heq : key = other
            · subst heq
              have hnone : rest.find? (fun entry => entry.1 = key) = none := by
                rw [List.find?_eq_none]
                intro entry hmem hentry
                exact hnot (of_decide_eq_true hentry ▸ List.mem_map_of_mem hmem)
              simp [hnone]
            · simp [heq, Function.update_of_ne (Ne.symm heq)]
          rw [hfresh]
          constructor
          · rintro ⟨hnodup, ⟨hnot, hnew⟩, rfl⟩
            refine ⟨⟨hnot, hnodup⟩, ?_, hoverlay hnot⟩
            intro entry hmem
            rcases List.mem_cons.mp hmem with rfl | hrest
            · exact hkey
            · exact hnew entry hrest
          · rintro ⟨⟨hnot, hnodup⟩, hnew, rfl⟩
            exact ⟨hnodup, ⟨hnot, fun entry hmem => hnew entry (List.mem_cons_of_mem _ hmem)⟩,
              (hoverlay hnot).symm⟩

/-- The overlay of distinct entries on a map without their keys, by membership. -/
theorem overlay_eq_some_iff (hnodup : (entries.map Prod.fst).Nodup)
    (hnew : ∀ entry ∈ entries, map entry.1 = none) {key : κ} {value : ν} :
    overlay entries map key = some value ↔ (key, value) ∈ entries ∨ map key = some value := by
  unfold overlay
  cases hfind : entries.find? fun entry => entry.1 = key with
  | none =>
      rw [Option.map_none, Option.none_or]
      have hnot : (key, value) ∉ entries := by
        intro hmem
        exact List.find?_eq_none.mp hfind _ hmem (decide_eq_true rfl)
      exact ⟨.inr, fun h => h.resolve_left hnot⟩
  | some entry =>
      have hmem := List.mem_of_find?_eq_some hfind
      have hkey : entry.1 = key := by simpa using List.find?_some hfind
      rw [Option.map_some, Option.some_or, Option.some.injEq]
      constructor
      · rintro rfl
        exact .inl (hkey ▸ hmem)
      · rintro (hother | hold)
        · have heq := List.inj_on_of_nodup_map hnodup hmem hother hkey
          rw [heq]
        · rw [← hkey, hnew entry hmem] at hold
          cases hold

end Directory
