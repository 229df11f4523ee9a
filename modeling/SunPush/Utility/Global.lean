import SunPush.Library.Substrings

/-!
# Replacing in a string

`ReplaceAllDistinct` of `Global.cpp` edits the string that it searches, and goes
on behind what it has put in.  So each of its rounds is the next replacement of a
single pass from the left, and what is left to search gets shorter.
-/

namespace SunPush

open Substrings

/-- The loop of `ReplaceAllDistinct`. -/
def replaceLoop {oldValue : List UInt8} (newValue : List UInt8) (nonempty : oldValue ≠ [])
    (str : List UInt8) (pos : Nat) : List UInt8 :=
  match _found : find str oldValue pos with
  | some pos =>
      replaceLoop newValue nonempty (replace str pos oldValue.length newValue)
        (pos + newValue.length)
  | none => str
termination_by str.length - pos
decreasing_by
  rcases exists_of_find _found with ⟨done, left, right, rfl, rfl, rfl, -⟩
  have positive := List.length_pos_iff.mpr nonempty
  simp [replace]
  omega

def replaceAllDistinct (str oldValue newValue : List UInt8) : List UInt8 :=
  if empty : oldValue = [] then str
  else if oldValue = newValue then str
  else replaceLoop newValue empty str 0

/-- What is in front of the position stays, and behind it every occurrence is replaced. -/
theorem replaceLoop_eq {oldValue newValue : List UInt8} (nonempty : oldValue ≠ [])
    (done rest : List UInt8) :
    replaceLoop newValue nonempty (done ++ rest) done.length =
      done ++ replaceAll oldValue newValue rest := by
  induction size : rest.length using Nat.strong_induction_on generalizing done rest with
  | _ length ih =>
      rw [replaceLoop]
      split
      case h_1 next found =>
        rcases exists_of_find found with ⟨front, left, right, text_eq, front_eq, rfl, occurs⟩
        rcases List.append_inj text_eq front_eq.symm with ⟨rfl, rfl⟩
        have positive := List.length_pos_iff.mpr nonempty
        have shorter : right.length < length := by
          rw [← size]
          simp
          omega
        have goes_on := ih right.length shorter (done ++ left ++ newValue) right rfl
        have edited : replace (done ++ (left ++ oldValue ++ right)) (done.length + left.length)
            oldValue.length newValue = done ++ left ++ newValue ++ right := by
          rw [← List.length_append, ← List.append_assoc, ← List.append_assoc]
          exact replace_append
        have position : done.length + left.length + newValue.length =
            (done ++ left ++ newValue).length := by
          rw [List.length_append, List.length_append]
        rw [edited, position, goes_on, replaceAll_of_found nonempty occurs]
        simp
      case h_2 none =>
        have nothing := occurrence_of_find none (by simp)
        rw [List.drop_left] at nothing
        rw [replaceAll_of_none nothing]

theorem replaceAllDistinct_of_nonempty {oldValue : List UInt8} (nonempty : oldValue ≠ [])
    (str newValue : List UInt8) :
    replaceAllDistinct str oldValue newValue = replaceAll oldValue newValue str := by
  rw [replaceAllDistinct, dif_neg nonempty]
  by_cases same : oldValue = newValue
  · rw [if_pos same, ← same, replaceAll_self]
  · rw [if_neg same]
    exact replaceLoop_eq nonempty [] str

/-- `ReplaceAllDistinct` is the replacement in one pass from the left. -/
theorem replaceAllDistinct_eq (str oldValue newValue : List UInt8) :
    replaceAllDistinct str oldValue newValue = replaceAll oldValue newValue str := by
  by_cases empty : oldValue = []
  · rw [replaceAllDistinct, dif_pos empty, empty, replaceAll_empty]
  · exact replaceAllDistinct_of_nonempty empty str newValue

end SunPush
