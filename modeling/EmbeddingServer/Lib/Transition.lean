import Mathlib.Logic.Relation

/-!
# Transition systems and inductive invariants

A run of a step relation is its reflexive transitive closure. A predicate that every
step preserves holds in every state of a run whose first state satisfies it.
-/

namespace Transition

variable {State : Type}

/-- `finish` is reached from `start` by finitely many steps. -/
abbrev Run (Step : State → State → Prop) : State → State → Prop :=
  Relation.ReflTransGen Step

/-- Every step from a state that satisfies the predicate ends in one that does. -/
def Preserves (Step : State → State → Prop) (Inv : State → Prop) : Prop :=
  ∀ ⦃before after⦄, Inv before → Step before after → Inv after

/-- A preserved predicate holds at the end of every run that starts in it. -/
theorem Preserves.run {Step : State → State → Prop} {Inv : State → Prop}
    (h : Preserves Step Inv) {start finish : State} (hrun : Run Step start finish)
    (hstart : Inv start) : Inv finish := by
  induction hrun with
  | refl => exact hstart
  | tail _ hstep ih => exact h ih hstep

end Transition
