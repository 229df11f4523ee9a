import Mathlib.Data.Int.Init
import Mathlib.Tactic.NormNum

/-!
# Fixed-width integers of a 32-bit C target

Conversions between the mathematical integers and the values of the C types
`long` (32-bit two's complement), `size_t` (32-bit unsigned) and `unsigned
short`, with the ranges in which a conversion changes nothing.
-/

namespace CInteger

/-- Conversion to a 32-bit `long`. -/
def toLong (value : Int) : Int := value.bmod (2 ^ 32)

/-- Conversion to a 32-bit `size_t`. -/
def toSizeT (value : Int) : Nat := (value % 2 ^ 32).toNat

/-- A 32-bit unsigned integer, with its arithmetic. -/
abbrev DWord : Type := BitVec 32

/-- Conversion to a 16-bit `unsigned short`. -/
def toUInt16 (value : Int) : Nat := (value % 2 ^ 16).toNat

theorem toLong_of_mem_range {value : Int} (lower : -2 ^ 31 ≤ value) (upper : value < 2 ^ 31) :
    toLong value = value :=
  Int.bmod_eq_of_le (by norm_num; omega) (by norm_num; omega)

/-- The two's complement reading of an unsigned 32-bit value. -/
theorem toLong_natCast {value : Nat} (value_lt : value < 2 ^ 32) :
    toLong value = if value < 2 ^ 31 then (value : Int) else value - 2 ^ 32 := by
  have mod : (value : Int) % ((2 ^ 32 : Nat) : Int) = value := by
    rw [Int.emod_eq_of_lt (by omega) (by exact_mod_cast value_lt)]
  rw [toLong, Int.bmod_def, mod]
  norm_num

theorem toSizeT_of_nonneg {value : Int} (lower : 0 ≤ value) (upper : value < 2 ^ 32) :
    toSizeT value = value.toNat := by
  rw [toSizeT, Int.emod_eq_of_lt lower upper]

theorem toSizeT_of_neg {value : Int} (lower : -2 ^ 32 ≤ value) (upper : value < 0) :
    toSizeT value = (value + 2 ^ 32).toNat := by
  rw [toSizeT, ← Int.add_emod_right, Int.emod_eq_of_lt (by omega) (by omega)]

/-- Naturals below `2 ^ 32` are told apart by their `long` conversions. -/
theorem toLong_injective_of_lt {left right : Nat} (left_lt : left < 2 ^ 32)
    (right_lt : right < 2 ^ 32) (same : toLong left = toLong right) : left = right := by
  have left_mod : toLong left % ((2 ^ 32 : Nat) : Int) = left := by
    rw [toLong, Int.bmod_emod, Int.emod_eq_of_lt (by omega) (by exact_mod_cast left_lt)]
  have right_mod : toLong right % ((2 ^ 32 : Nat) : Int) = right := by
    rw [toLong, Int.bmod_emod, Int.emod_eq_of_lt (by omega) (by exact_mod_cast right_lt)]
  rw [same, right_mod] at left_mod
  exact_mod_cast left_mod.symm

theorem toUInt16_natCast (value : Nat) : toUInt16 value = value % 2 ^ 16 := by
  simp only [toUInt16]
  omega

end CInteger
