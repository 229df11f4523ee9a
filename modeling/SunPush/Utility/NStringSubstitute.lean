import SunPush.Utility.NStringCalls

/-!
# Substituting in an `nString`

`Substitute` puts a new string together from what stands between the occurrences
and the substitute for each of them.  The string it builds always knows how long
it is, so it takes every text that 16 bits can count.
-/

namespace SunPush

namespace StringText

/-- `Length` is the length of the text. -/
def Counted (text : StringText) : Prop := text.length = text.chars.length

theorem appended_chars (text : StringText) (more : List UInt8) :
    (text.appended more).chars = text.chars ++ more := by
  rw [appended]
  split
  case isTrue none_more => rw [none_more, List.append_nil]
  case isFalse =>
    split
    case isTrue literal =>
      rw [NString.Shows.chars_of_isLiteral literal]
      rfl
    case isFalse => rfl

theorem Counted.appended {text : StringText} (counted : text.Counted) (more : List UInt8) :
    (text.appended more).Counted := by
  rw [Counted, appended_chars, StringText.appended, List.length_append, ← counted]
  split
  case isTrue none_more =>
    subst none_more
    rfl
  case isFalse =>
    split
    case isTrue literal =>
      rw [counted, NString.Shows.chars_of_isLiteral literal]
      exact (Nat.zero_add _).symm
    case isFalse => rfl

/-- A text that is counted takes as many characters as 16 bits can count. -/
theorem Counted.hasRoom_iff {text : StringText} (counted : text.Counted) {numChars : Nat}
    (short : text.length < 2 ^ 16) (small : numChars < 2 ^ 16) :
    text.HasRoom numChars ↔ text.chars.length + numChars < 2 ^ 16 := by
  rw [← counted, HasRoom]
  constructor
  · rintro (none_more | literal | room)
    · omega
    · rw [counted, NString.Shows.chars_of_isLiteral literal, List.length_nil, Nat.zero_add]
      exact small
    · exact room
  · intro room
    exact .inr (.inr room)

end StringText

namespace NString

open Substrings

/-- The string has this text, and knows how long it is. -/
def Holds (this : NString) (chars : List UInt8) : Prop :=
  ∃ text, Shows this text ∧ text.Counted ∧ text.chars = chars

namespace Holds

variable {this : NString} {chars : List UInt8}

theorem get_chars (holds : Holds this chars) : this.get.chars = chars := by
  rcases holds with ⟨text, shows_, -, rfl⟩
  exact shows_.get_chars

theorem length_eq (holds : Holds this chars) : this.length.toNat = chars.length := by
  rcases holds with ⟨text, shows_, counted, rfl⟩
  exact shows_.length_eq.trans counted

/-- What 16 bits can count is appended, and nothing else. -/
theorem appendRange (holds : Holds this chars) (safeCast : SafeCast) (heap : Nat → UInt8)
    {str : NulString} {numChars : Nat} (within : numChars ≤ str.chars.length)
    (small : numChars < 2 ^ 16) :
    if chars.length + numChars < 2 ^ 16 then
      ∃ after, this.appendRange safeCast heap (.elsewhere str) numChars = some after ∧
        Holds after (chars ++ str.chars.take numChars)
    else this.appendRange safeCast heap (.elsewhere str) numChars = none := by
  rcases holds with ⟨text, shows_, counted, rfl⟩
  have hasRoom_iff := counted.hasRoom_iff shows_.length_lt small
  split
  case isTrue room =>
    have fits := hasRoom_iff.mpr room
    rcases @Shows.appendRange this text (.elsewhere str) shows_ safeCast heap _ within small fits
      trivial with ⟨after, appends, shows_after⟩
    exact ⟨after, appends, _, shows_after, counted.appended _, text.appended_chars _⟩
  case isFalse full =>
    apply shows_.appendRange_eq_none safeCast heap within small
    exact fun room => full (hasRoom_iff.mp room.1)

theorem append (holds : Holds this chars) (safeCast : SafeCast) (heap : Nat → UInt8)
    {str : NulString} (small : str.chars.length < 2 ^ 16) :
    if chars.length + str.chars.length < 2 ^ 16 then
      ∃ after, this.append safeCast heap (.elsewhere str) = some after ∧
        Holds after (chars ++ str.chars)
    else this.append safeCast heap (.elsewhere str) = none := by
  have appends := holds.appendRange safeCast heap (Nat.le_refl str.chars.length) small
  rw [List.take_length] at appends
  have appended : this.append safeCast heap (.elsewhere str) =
      this.appendRange safeCast heap (.elsewhere str) str.chars.length := by
    rw [NString.append, pointee, safeCast.keeps _ small, Option.bind_eq_bind, Option.bind_some,
      toNat_ofNat small]
  rw [appended]
  exact appends

end Holds

theorem holds_construct (place : Nat → UInt8) : Holds (construct place) [] :=
  ⟨_, shows_construct place, rfl, rfl⟩

/-- Behind what has been put together so far come the rest of the text and its substitutes, if 16
bits can count all of it. -/
theorem substituteLoop_eq (safeCast : SafeCast) {matchStr substStr : NulString}
    (nonempty : matchStr.chars ≠ []) (small : substStr.chars.length < 2 ^ 16)
    (heap : Nat → Nat → UInt8) {dest : NString} {done : List UInt8} (holds : Holds dest done)
    {ptr : NulString} (short : ptr.chars.length < 2 ^ 16) {rounds : Nat}
    (enough : ptr.chars.length < rounds) :
    if (done ++ replaceAll matchStr.chars substStr.chars ptr.chars).length < 2 ^ 16 then
      ∃ after, substituteLoop safeCast matchStr substStr heap dest ptr rounds = some after ∧
        Holds after (done ++ replaceAll matchStr.chars substStr.chars ptr.chars)
    else substituteLoop safeCast matchStr substStr heap dest ptr rounds = none := by
  induction rounds generalizing heap dest done ptr with
  | zero => contradiction
  | succ rounds ih =>
      rw [substituteLoop]
      cases found : occurrence matchStr.chars ptr.chars with
      | none =>
          rw [replaceAll_of_none found, List.length_append]
          exact holds.append safeCast (heap 0) short
      | some occur =>
          rcases exists_of_occurrence found with ⟨left, right, text_eq, rfl⟩
          have skipped : (ptr.drop (left.length + matchStr.chars.length)).chars = right := by
            change ptr.chars.drop (left.length + matchStr.chars.length) = right
            rw [text_eq, ← List.length_append, List.drop_left]
          have front : ptr.chars.take left.length = left := by
            rw [text_eq, List.append_assoc, List.take_left]
          have positive := List.length_pos_iff.mpr nonempty
          have length_ptr : ptr.chars.length =
              left.length + matchStr.chars.length + right.length := by
            rw [text_eq, List.length_append, List.length_append]
          have replaced : replaceAll matchStr.chars substStr.chars ptr.chars =
              left ++ substStr.chars ++ replaceAll matchStr.chars substStr.chars right := by
            rw [text_eq] at found ⊢
            exact replaceAll_of_found nonempty found
          have total : (done ++ replaceAll matchStr.chars substStr.chars ptr.chars).length =
              (done ++ left ++ substStr.chars).length +
                (replaceAll matchStr.chars substStr.chars right).length := by
            rw [replaced]
            simp only [List.length_append]
            omega
          have within : left.length ≤ ptr.chars.length := by omega
          have fragment := holds.appendRange safeCast (heap 0) within (by omega)
          rw [front] at fragment
          by_cases room : done.length + left.length < 2 ^ 16
          · rw [if_pos room] at fragment
            rcases fragment with ⟨dest, appends, holds⟩
            have substitute := holds.append safeCast (heap 1) small
            by_cases room : (done ++ left).length + substStr.chars.length < 2 ^ 16
            · rw [if_pos room] at substitute
              rcases substitute with ⟨dest, substitutes, holds⟩
              have shorter :
                  (ptr.drop (left.length + matchStr.chars.length)).chars.length < rounds := by
                rw [skipped]
                omega
              have later_short :
                  (ptr.drop (left.length + matchStr.chars.length)).chars.length < 2 ^ 16 := by
                rw [skipped]
                omega
              have goes_on := ih (fun allocation => heap (allocation + 2)) holds later_short shorter
              have same : done ++ left ++ substStr.chars ++
                  replaceAll matchStr.chars substStr.chars right =
                    done ++ replaceAll matchStr.chars substStr.chars ptr.chars := by
                rw [replaced, List.append_assoc, List.append_assoc, List.append_assoc]
              rw [skipped, same] at goes_on
              simp only [appends, substitutes, Option.bind_eq_bind, Option.bind_some]
              exact goes_on
            · rw [if_neg room] at substitute
              rw [if_neg (by rw [total, List.length_append]; omega)]
              simp only [appends, substitute, Option.bind_eq_bind, Option.bind_some,
                Option.bind_none]
          · rw [if_neg room] at fragment
            rw [if_neg (by rw [total, List.length_append, List.length_append]; omega)]
            simp only [fragment, Option.bind_eq_bind, Option.bind_none]

end NString

end SunPush
