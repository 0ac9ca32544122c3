import Mathlib.Data.List.Basic

/-!
# Data behind a lock whose holder writes in several steps

The holder of a lock decides on its writes when it takes the lock and makes them one at a
time. `settle` is the data with the outstanding writes made: the writes of the holder do
not change it, so an invariant of the settled data has to be proved once for each critical
section. `Confined` says that every write meets a condition in the state it is made in.
-/

namespace Monitor

variable {σ Update : Type} (apply : σ → Update → σ)

/-- The data once the outstanding writes are made. -/
def settle (pending : List Update) (data : σ) : σ :=
  pending.foldl apply data

@[simp]
theorem settle_nil (data : σ) : settle apply [] data = data :=
  rfl

@[simp]
theorem settle_cons (update : Update) (pending : List Update) (data : σ) :
    settle apply (update :: pending) data = settle apply pending (apply data update) :=
  rfl

/-- Every outstanding write is allowed in the state it will be made in. -/
def Confined (allowed : σ → Update → Prop) : List Update → σ → Prop
  | [], _ => True
  | update :: pending, data =>
      allowed data update ∧ Confined allowed pending (apply data update)

variable {apply} {allowed : σ → Update → Prop}

/-- Writes that are allowed in every state with an invariant they keep. -/
theorem confined_of_forall (Inv : σ → Prop) {pending : List Update}
    (h : ∀ update ∈ pending, ∀ data, Inv data → allowed data update ∧ Inv (apply data update))
    {data : σ} (hdata : Inv data) : Confined apply allowed pending data := by
  induction pending generalizing data with
  | nil => trivial
  | cons update pending ih =>
      obtain ⟨hallowed, hnext⟩ := h update (by simp) data hdata
      refine ⟨hallowed, ih ?_ hnext⟩
      intro other hother
      exact h other (by simp [hother])

end Monitor
