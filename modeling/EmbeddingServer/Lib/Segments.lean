import Mathlib.Algebra.Ring.Nat
import Mathlib.Data.List.Basic

/-!
# Consecutive segments of a list

Owners with sizes share one list of values: the first owner has the first `size`
values, the second the next ones, and so on. `Segments.offset` is where the values
of the owner at a position begin, and `Segments.segment` is the block itself.
`segment_flat_map` recovers each block of a concatenation.
-/

namespace Segments

variable {α β γ : Type}

/-- Where the values of the owner at position `k` begin: the sizes of the earlier owners. -/
def offset (size : α → Nat) (owners : List α) (k : Nat) : Nat :=
  ((owners.take k).map size).sum

/-- The values at positions `[offset, offset + size)` for an owner at position `k`. -/
def segment (size : α → Nat) (owners : List α) (k : Nat) (owner : α) (values : List β) : List β :=
  (values.drop (offset size owners k)).take (size owner)

@[simp] theorem offset_zero (size : α → Nat) (owners : List α) : offset size owners 0 = 0 := rfl

@[simp] theorem offset_cons_succ (size : α → Nat) (first : α) (owners : List α) (k : Nat) :
    offset size (first :: owners) (k + 1) = size first + offset size owners k := by
  simp [offset]

/-- The first owner has the first values. -/
@[simp] theorem segment_zero (size : α → Nat) (owners : List α) (owner : α) (values : List β) :
    segment size owners 0 owner values = values.take (size owner) := by
  simp [segment]

/-- Past the first owner, segments are those of the remaining owners in the remaining values. -/
@[simp] theorem segment_cons_succ (size : α → Nat) (first : α) (owners : List α) (k : Nat)
    (owner : α) (values : List β) :
    segment size (first :: owners) (k + 1) owner values =
      segment size owners k owner (values.drop (size first)) := by
  simp [segment, List.drop_drop]

/-- Mapping values and cutting commute. -/
theorem segment_map (size : α → Nat) (owners : List α) (k : Nat) (owner : α) (values : List β)
    (f : β → γ) :
    segment size owners k owner (values.map f) = (segment size owners k owner values).map f := by
  simp [segment, List.map_take, List.map_drop]

/-- Renaming the owners does not move the segments. -/
theorem segment_owners_map (size : γ → Nat) (rename : α → γ) (owners : List α) (k : Nat)
    (owner : α) (values : List β) :
    segment size (owners.map rename) k (rename owner) values =
      segment (fun o => size (rename o)) owners k owner values := by
  simp [segment, offset, List.map_take, Function.comp_def]

/-- Cutting a concatenation at the lengths of its blocks gives the blocks back. -/
theorem segment_flat_map (block : α → List β) (owners : List α) (k : Nat) (owner : α)
    (h : owners[k]? = some owner) :
    segment (fun o => (block o).length) owners k owner (owners.flatMap block) = block owner := by
  induction owners generalizing k with
  | nil => simp at h
  | cons first rest ih =>
      cases k with
      | zero =>
          obtain rfl : first = owner := by simpa using h
          simp
      | succ k => simpa using ih k (by simpa using h)

/-- The same for sizes that agree with the lengths of the blocks. -/
theorem segment_flat_map_of_size (size : α → Nat) (block : α → List β) (owners : List α)
    (hsize : ∀ owner ∈ owners, size owner = (block owner).length) (k : Nat) (owner : α)
    (h : owners[k]? = some owner) :
    segment size owners k owner (owners.flatMap block) = block owner := by
  have hoffset : offset size owners k = offset (fun o => (block o).length) owners k := by
    unfold offset
    rw [List.map_congr_left fun o ho => hsize o (List.mem_of_mem_take ho)]
  unfold segment
  rw [hoffset, hsize owner (List.mem_of_getElem? h)]
  exact segment_flat_map block owners k owner h

end Segments
