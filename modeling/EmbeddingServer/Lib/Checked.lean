import Mathlib.Algebra.Order.BigOperators.Group.List
import Mathlib.Algebra.Ring.Nat
import Mathlib.Data.List.Basic

/-!
# Checked machine arithmetic

Unsigned machine words of width `w` are natural numbers below `2 ^ w`, and the
checked operations fail instead of wrapping. `try_sum_eq_some_iff` says that a
checked left fold of additions succeeds exactly when the whole sum fits.
-/

namespace Checked

/-- Addition of `w`-bit words, failing on overflow. -/
def add (w a b : Nat) : Option Nat :=
  if a + b < 2 ^ w then some (a + b) else none

/-- Multiplication of `w`-bit words, failing on overflow. -/
def mul (w a b : Nat) : Option Nat :=
  if a * b < 2 ^ w then some (a * b) else none

/-- A successful checked addition is the exact sum, which fits. -/
@[simp] theorem add_eq_some_iff {w a b c : Nat} :
    add w a b = some c ↔ a + b = c ∧ c < 2 ^ w := by
  unfold add
  split
  · simp only [Option.some.injEq]
    constructor
    · rintro rfl
      exact ⟨rfl, ‹_›⟩
    · exact And.left
  · simp only [reduceCtorEq, false_iff, not_and]
    rintro rfl
    assumption

/-- A checked addition fails exactly when the sum does not fit. -/
theorem add_eq_none_iff {w a b : Nat} : add w a b = none ↔ ¬ a + b < 2 ^ w := by
  unfold add
  split
  · rename_i hfits
    exact ⟨fun h => absurd h (Option.some_ne_none _), fun h => absurd hfits h⟩
  · rename_i hover
    exact ⟨fun _ => hover, fun _ => rfl⟩

/-- A successful checked multiplication is the exact product, which fits. -/
@[simp] theorem mul_eq_some_iff {w a b c : Nat} :
    mul w a b = some c ↔ a * b = c ∧ c < 2 ^ w := by
  unfold mul
  split
  · simp only [Option.some.injEq]
    constructor
    · rintro rfl
      exact ⟨rfl, ‹_›⟩
    · exact And.left
  · simp only [reduceCtorEq, false_iff, not_and]
    rintro rfl
    assumption

/-- Add the words of a list to `acc` from the left, failing at the first overflow. -/
def trySumFrom (w : Nat) : Nat → List Nat → Option Nat
  | acc, [] => some acc
  | acc, x :: rest => add w acc x >>= fun sum => trySumFrom w sum rest

/-- The checked sum of a list of words. -/
def trySum (w : Nat) (words : List Nat) : Option Nat :=
  trySumFrom w 0 words

/-- A checked fold that starts from a word succeeds exactly when the whole sum fits. -/
theorem try_sum_from_eq_some_iff {w acc total : Nat} {words : List Nat} (hacc : acc < 2 ^ w) :
    trySumFrom w acc words = some total ↔ acc + words.sum = total ∧ total < 2 ^ w := by
  induction words generalizing acc with
  | nil =>
      simp only [trySumFrom, Option.some.injEq, List.sum_nil, Nat.add_zero]
      constructor
      · rintro rfl
        exact ⟨rfl, hacc⟩
      · exact And.left
  | cons x rest ih =>
      simp only [trySumFrom, Option.bind_eq_bind, Option.bind_eq_some_iff, add_eq_some_iff,
        List.sum_cons]
      constructor
      · rintro ⟨sum, ⟨rfl, hsum⟩, hrest⟩
        have h := (ih hsum).mp hrest
        exact ⟨by omega, h.2⟩
      · rintro ⟨hsum, htotal⟩
        exact ⟨acc + x, ⟨rfl, by omega⟩, (ih (by omega)).mpr ⟨by omega, htotal⟩⟩

/-- The checked sum succeeds exactly when the sum fits in a word. -/
theorem try_sum_eq_some_iff {w total : Nat} {words : List Nat} :
    trySum w words = some total ↔ words.sum = total ∧ total < 2 ^ w := by
  have h : trySumFrom w 0 words = some total ↔ 0 + words.sum = total ∧ total < 2 ^ w :=
    try_sum_from_eq_some_iff (Nat.two_pow_pos w)
  rw [Nat.zero_add] at h
  exact h

/-! ## Sequences of checks -/

/-- A sequence of checks passes when each of them does. -/
theorem bind_ok {ε α β : Type} {first : Except ε α} {next : α → Except ε β} {result : β} :
    first >>= next = .ok result ↔ ∃ value, first = .ok value ∧ next value = .ok result := by
  cases first with
  | error error =>
      constructor
      · intro h
        cases h
      · rintro ⟨_, h, _⟩
        cases h
  | ok value =>
      constructor
      · intro h
        exact ⟨value, rfl, h⟩
      · rintro ⟨_, h, hnext⟩
        cases h
        exact hnext

/-- A list of checks passes when each of them does, in order. -/
theorem map_m_ok {ε α β : Type} {check : α → Except ε β} {items : List α} {results : List β} :
    items.mapM check = .ok results ↔
      List.Forall₂ (fun item result => check item = .ok result) items results := by
  induction items generalizing results with
  | nil =>
      rw [List.mapM_nil, List.forall₂_nil_left_iff]
      constructor
      · intro h
        cases h
        rfl
      · rintro rfl
        rfl
  | cons item rest ih =>
      rw [List.mapM_cons, bind_ok]
      constructor
      · rintro ⟨first, hfirst, h⟩
        obtain ⟨others, hothers, h⟩ := bind_ok.mp h
        cases h
        exact .cons hfirst (ih.mp hothers)
      · intro h
        cases h with
        | cons hfirst hrest => exact ⟨_, hfirst, bind_ok.mpr ⟨_, ih.mpr hrest, rfl⟩⟩

/-- A list of checks each of which passes. -/
theorem map_m_total {ε α β : Type} {check : α → Except ε β} {items : List α}
    (h : ∀ item ∈ items, ∃ result, check item = .ok result) :
    ∃ results, items.mapM check = .ok results := by
  induction items with
  | nil => exact ⟨[], rfl⟩
  | cons item rest ih =>
      rw [List.forall_mem_cons] at h
      obtain ⟨first, hfirst⟩ := h.1
      obtain ⟨others, hothers⟩ := ih h.2
      exact ⟨first :: others, map_m_ok.mpr (.cons hfirst (map_m_ok.mp hothers))⟩

/-- Every result comes from an item, and every item has a result. -/
theorem map_m_mem {ε α β : Type} {check : α → Except ε β} {items : List α} {results : List β}
    (h : items.mapM check = .ok results) :
    (∀ result ∈ results, ∃ item ∈ items, check item = .ok result) ∧
      ∀ item ∈ items, ∃ result ∈ results, check item = .ok result := by
  rw [map_m_ok] at h
  induction h with
  | nil => exact ⟨fun _ h => absurd h List.not_mem_nil, fun _ h => absurd h List.not_mem_nil⟩
  | cons hfirst _ ih =>
      constructor
      · intro result hresult
        rcases List.mem_cons.mp hresult with rfl | hresult
        · exact ⟨_, List.mem_cons_self, hfirst⟩
        · obtain ⟨item, hitem, hcheck⟩ := ih.1 result hresult
          exact ⟨item, List.mem_cons_of_mem _ hitem, hcheck⟩
      · intro item hitem
        rcases List.mem_cons.mp hitem with rfl | hitem
        · exact ⟨_, List.mem_cons_self, hfirst⟩
        · obtain ⟨result, hresult, hcheck⟩ := ih.2 item hitem
          exact ⟨result, List.mem_cons_of_mem _ hresult, hcheck⟩

end Checked
