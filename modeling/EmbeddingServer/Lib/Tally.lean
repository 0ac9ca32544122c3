import Mathlib.Algebra.BigOperators.Group.Finset.Piecewise
import Mathlib.Algebra.Order.BigOperators.Group.Finset
import Mathlib.Data.Finset.Card

/-!
# Tallies of what numbered holders hold

The first `count` holders each hold a number of units; the tally is the sum. A holder that
changes what it holds changes the tally by the difference. A list of distinct holders that
hold at least one unit each is no longer than the tally, which bounds a buffer of items by
the units the items keep.
-/

namespace Tally

variable {count : Nat} {held held' : Nat → Nat}

/-- The units that the first `count` holders hold. -/
def tally (count : Nat) (held : Nat → Nat) : Nat :=
  ∑ holder ∈ Finset.range count, held holder

@[simp]
theorem tally_zero (held : Nat → Nat) : tally 0 held = 0 :=
  rfl

/-- One more holder. -/
theorem tally_succ (count : Nat) (held : Nat → Nat) :
    tally (count + 1) held = tally count held + held count :=
  Finset.sum_range_succ held count

/-- Only the units of the first `count` holders matter. -/
theorem tally_congr (h : ∀ holder, holder < count → held holder = held' holder) :
    tally count held = tally count held' :=
  Finset.sum_congr rfl fun holder hholder => h holder (Finset.mem_range.mp hholder)

/-- A holder changes what it holds. -/
theorem tally_change (held held' : Nat → Nat) {holder : Nat} (hholder : holder < count)
    (hothers : ∀ other, other ≠ holder → held' other = held other) :
    tally count held' + held holder = tally count held + held' holder := by
  have hmem : holder ∈ Finset.range count := Finset.mem_range.mpr hholder
  have hrest : ∑ other ∈ (Finset.range count).erase holder, held' other =
      ∑ other ∈ (Finset.range count).erase holder, held other :=
    Finset.sum_congr rfl fun other hother => hothers other (Finset.ne_of_mem_erase hother)
  unfold tally
  rw [← Finset.add_sum_erase _ held hmem, ← Finset.add_sum_erase _ held' hmem, hrest]
  omega

/-- No holder holds more than the tally. -/
theorem le_tally (held : Nat → Nat) {holder : Nat} (hholder : holder < count) :
    held holder ≤ tally count held :=
  Finset.single_le_sum (fun _ _ => Nat.zero_le _) (Finset.mem_range.mpr hholder)

/-- Distinct holders of at least one unit are no more than the tally. -/
theorem length_le_tally {holders : List Nat} (hdistinct : holders.Nodup)
    (h : ∀ holder ∈ holders, holder < count ∧ 1 ≤ held holder) :
    holders.length ≤ tally count held := by
  have hsubset : holders.toFinset ⊆ Finset.range count := by
    intro holder hholder
    exact Finset.mem_range.mpr (h holder (List.mem_toFinset.mp hholder)).1
  calc holders.length = holders.toFinset.card := (List.toFinset_card_of_nodup hdistinct).symm
    _ = ∑ _holder ∈ holders.toFinset, 1 := by simp
    _ ≤ ∑ holder ∈ holders.toFinset, held holder :=
        Finset.sum_le_sum fun holder hholder => (h holder (List.mem_toFinset.mp hholder)).2
    _ ≤ tally count held := Finset.sum_le_sum_of_subset hsubset

/-- A tally of sums is the sum of tallies. -/
theorem tally_add (count : Nat) (held held' : Nat → Nat) :
    tally count (fun holder => held holder + held' holder) =
      tally count held + tally count held' :=
  Finset.sum_add_distrib

/-- Tallies over two kinds of holders may be taken in either order. -/
theorem tally_comm (count count' : Nat) (held : Nat → Nat → Nat) :
    tally count (fun holder => tally count' (held holder)) =
      tally count' fun other => tally count fun holder => held holder other :=
  Finset.sum_comm

/-- The tally of one unit at one place. -/
theorem tally_single {place : Nat} (hplace : place < count) (units : Nat) :
    tally count (fun holder => if holder = place then units else 0) = units := by
  unfold tally
  rw [Finset.sum_ite_eq' (Finset.range count) place fun _ => units]
  simp [hplace]

end Tally
