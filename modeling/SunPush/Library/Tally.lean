import Mathlib.Data.Nat.Count
import Mathlib.Data.Set.Card

/-!
# Tallies

The number of entries of a table that meet a condition, among those below a
bound: what becomes of it when one entry changes, and when the table grows.  It
is the number of all of them when none above the bound meets the condition.
-/

/-- How many of the entries below `bound` count. -/
def tally {α : Type*} (counts : α → Bool) (entries : Nat → α) (bound : Nat) : Nat :=
  Nat.count (fun index => counts (entries index) = true) bound

section Tally

variable {α : Type*} (counts : α → Bool) (entries : Nat → α)

@[simp]
theorem tally_zero : tally counts entries 0 = 0 :=
  Nat.count_zero _

theorem tally_succ (bound : Nat) :
    tally counts entries (bound + 1) =
      tally counts entries bound + (counts (entries bound)).toNat := by
  rw [tally, Nat.count_succ]
  cases counts (entries bound) <;> rfl

/-- Entries at or above the bound do not matter. -/
theorem tally_update_of_le {index bound : Nat} (above : bound ≤ index) (value : α) :
    tally counts (Function.update entries index value) bound = tally counts entries bound := by
  induction bound with
  | zero => rfl
  | succ bound ih =>
      have different : bound ≠ index := by omega
      simp only [tally_succ, Function.update_of_ne different]
      rw [ih (by omega)]

/-- An entry below the bound changes. -/
theorem tally_update {index bound : Nat} (below : index < bound) (value : α) :
    tally counts (Function.update entries index value) bound + (counts (entries index)).toNat =
      tally counts entries bound + (counts value).toNat := by
  induction bound with
  | zero => omega
  | succ bound ih =>
      simp only [tally_succ]
      rcases Nat.lt_succ_iff_lt_or_eq.mp below with earlier | rfl
      · have different : bound ≠ index := by omega
        have smaller := ih earlier
        simp only [Function.update_of_ne different]
        omega
      · simp only [tally_update_of_le counts entries (Nat.le_refl index), Function.update_self]
        omega

/-- The table grows by one entry. -/
theorem tally_extend (bound : Nat) (value : α) :
    tally counts (Function.update entries bound value) (bound + 1) =
      tally counts entries bound + (counts value).toNat := by
  rw [tally_succ, tally_update_of_le counts entries (Nat.le_refl bound), Function.update_self]

theorem tally_eq_ncard {bound : Nat}
    (below : ∀ index, counts (entries index) = true → index < bound) :
    tally counts entries bound = {index | counts (entries index) = true}.ncard := by
  have same : {index | counts (entries index) = true} =
      ((Finset.range bound).filter fun index => counts (entries index) = true : Finset Nat) := by
    ext index
    simpa using below index
  rw [same, Set.ncard_coe_finset, tally, Nat.count_eq_card_filter_range]

end Tally
