import Mathlib.Data.List.Basic

/-!
# Lines of a stream

A stream is cut after each separator. What follows the last separator is a line of its own unless
it is empty.
-/

namespace Lines

variable {α : Type} [DecidableEq α]

/-- The lines of a stream, without their separators. -/
def split (sep : α) : List α → List (List α)
  | [] => []
  | head :: rest =>
      if head = sep then [] :: split sep rest
      else
        match split sep rest with
        | [] => [[head]]
        | first :: others => (head :: first) :: others

/-- A terminated line is followed by the lines of the rest. -/
theorem split_terminated {sep : α} {body : List α} (h : sep ∉ body) (rest : List α) :
    split sep (body ++ sep :: rest) = body :: split sep rest := by
  induction body with
  | nil => simp [split]
  | cons head body ih =>
      rw [List.mem_cons, not_or] at h
      rw [List.cons_append, split, if_neg (Ne.symm h.1), ih h.2]

/-- A line without a separator is the last one. -/
theorem split_open {sep : α} {body : List α} (h : sep ∉ body) (hne : body ≠ []) :
    split sep body = [body] := by
  induction body with
  | nil => exact absurd rfl hne
  | cons head body ih =>
      rw [List.mem_cons, not_or] at h
      rw [split, if_neg (Ne.symm h.1)]
      cases body with
      | nil => rfl
      | cons next body => rw [ih h.2 (List.cons_ne_nil _ _)]

/-- Terminated lines are found again. -/
theorem split_joined {sep : α} {bodies : List (List α)} (h : ∀ body ∈ bodies, sep ∉ body) :
    split sep (bodies.flatMap fun body => body ++ [sep]) = bodies := by
  induction bodies with
  | nil => rfl
  | cons body rest ih =>
      rw [List.forall_mem_cons] at h
      rw [List.flatMap_cons, List.append_assoc, List.singleton_append, split_terminated h.1, ih h.2]

end Lines
