import Mathlib.Algebra.BigOperators.Group.List.Basic
import Mathlib.Algebra.Ring.Nat

/-!
# Depth-first search with an explicit worklist

A loop takes an item off a list, stops when the item is a hit, and otherwise puts the
successors of the item back. `search_iff` says what such a loop decides: some item that
can be reached from the list is a hit. It asks only for the three equations of the loop and
for a size that the successors of an item do not use up.
-/

namespace Worklist

variable {α : Type}

/-- The items that can be reached from a list by taking successors. -/
inductive Reach (next : α → List α) (work : List α) : α → Prop where
  | root {item : α} : item ∈ work → Reach next work item
  | step {item child : α} : Reach next work item → child ∈ next item → Reach next work child

variable {next : α → List α}

/-- Nothing can be reached from an empty list. -/
theorem not_reach_nil {item : α} : ¬ Reach next [] item := by
  intro h
  induction h with
  | root hmem => cases hmem
  | step _ _ ih => exact ih

/-- What a list reaches is its head, or is reached from the head's successors and the rest. -/
theorem reach_cons_iff {head item : α} {rest pushed : List α}
    (hpushed : ∀ child, child ∈ pushed ↔ child ∈ next head) :
    Reach next (head :: rest) item ↔ item = head ∨ Reach next (pushed ++ rest) item := by
  constructor
  · intro h
    induction h with
    | root hmem =>
        cases List.mem_cons.mp hmem with
        | inl heq => exact .inl heq
        | inr hrest => exact .inr (.root (List.mem_append_right pushed hrest))
    | step _ hchild ih =>
        cases ih with
        | inl heq =>
            subst heq
            exact .inr (.root (List.mem_append_left rest ((hpushed _).mpr hchild)))
        | inr hreach => exact .inr (.step hreach hchild)
  · intro h
    cases h with
    | inl heq =>
        subst heq
        exact .root List.mem_cons_self
    | inr hreach =>
        induction hreach with
        | root hmem =>
            cases List.mem_append.mp hmem with
            | inl hnew => exact .step (.root List.mem_cons_self) ((hpushed _).mp hnew)
            | inr hrest => exact .root (List.mem_cons_of_mem head hrest)
        | step _ hchild ih => exact .step ih hchild

/-- The loop finds a hit exactly when one can be reached. -/
theorem search_iff {search : List α → Bool} {hit : α → Prop} (push : α → List α)
    (size : α → Nat) (hpush : ∀ item child, child ∈ push item ↔ child ∈ next item)
    (hnil : search [] = false)
    (hhit : ∀ item rest, hit item → search (item :: rest) = true)
    (hmiss : ∀ item rest, ¬ hit item → search (item :: rest) = search (push item ++ rest))
    (hsize : ∀ item, ((push item).map size).sum < size item) (work : List α) :
    search work = true ↔ ∃ item, Reach next work item ∧ hit item := by
  -- a round replaces an item by items of a smaller total size
  induction hn : (work.map size).sum using Nat.strongRecOn generalizing work with
  | ind n ih =>
      subst hn
      cases work with
      | nil =>
          rw [hnil]
          constructor
          · intro h
            cases h
          · rintro ⟨item, hreach, _⟩
            exact absurd hreach not_reach_nil
      | cons head rest =>
          by_cases hhead : hit head
          · rw [hhit head rest hhead]
            exact ⟨fun _ => ⟨head, .root List.mem_cons_self, hhead⟩, fun _ => rfl⟩
          · have hless : ((push head ++ rest).map size).sum < ((head :: rest).map size).sum := by
              have := hsize head
              simp only [List.map_append, List.sum_append, List.map_cons, List.sum_cons]
              omega
            rw [hmiss head rest hhead, ih _ hless _ rfl]
            constructor
            · rintro ⟨item, hreach, hit⟩
              exact ⟨item, (reach_cons_iff (hpush head)).mpr (.inr hreach), hit⟩
            · rintro ⟨item, hreach, hit⟩
              cases (reach_cons_iff (hpush head)).mp hreach with
              | inl heq => exact absurd (heq ▸ hit) hhead
              | inr hreach => exact ⟨item, hreach, hit⟩

end Worklist
