import SunPush.Utility.NStringTexts

/-!
# Changes of an `nString` in place

They write through the pointer that `Get` returns, and leave `Length` as it is.
Where that pointer is the literal for an empty string, a write is none of the
string's own.
-/

namespace SunPush

namespace StringText

/-- A text with only the characters in front of an index. -/
def cut (text : StringText) (index : Nat) : StringText :=
  { text with chars := text.chars.take index }

theorem cut_of_le {text : StringText} {index : Nat} (behind : text.chars.length ≤ index) :
    text.cut index = text := by
  rw [cut, List.take_of_length_le behind]

/-- A text up to the first of some characters. -/
def stripped (text : StringText) (charSet : NulString) : StringText :=
  { text with chars := text.chars.takeWhile (· ∉ charSet.chars) }

/-- A text without a slash at its end, if `Length` knows where that is. -/
def withoutTrailingSlash (text : StringText) : StringText :=
  if text.chars.length = text.length ∧ text.chars.getLast?.any NString.isSlash then
    { text with chars := text.chars.dropLast }
  else text

/-- A slash for a backslash. -/
def slashed (c : UInt8) : UInt8 := if c = 92 then 47 else c

def withSlashes (text : StringText) : StringText :=
  { text with chars := text.chars.map slashed }

/-- A text without its last dot and what stands behind it, if anything does. -/
def withoutExtension (text : StringText) : StringText :=
  match NString.lastIndex 46 text.chars with
  | some dot => if dot + 1 < text.chars.length then text.cut dot else text
  | none => text

end StringText

namespace NString

open CBlock

namespace Shows

variable {this : NString} {text : StringText}

theorem buffer_of_isLiteral (shows_ : Shows this text) (literal : text.isLiteral = true) :
    this.buffer = none := by
  cases shows_ with
  | inHeap _ _ _ _ => contradiction
  | @inObject localString chars strLen localSize holds counted fits =>
      rw [StringText.isLiteral_inObject] at literal
      rw [buffer, isLocal_eq ⟨none, localString, strLen⟩ holds, literal]
      rfl

theorem chars_of_isLiteral (literal : text.isLiteral = true) : text.chars = [] := by
  rw [StringText.isLiteral, Bool.and_eq_true] at literal
  exact List.isEmpty_iff.mp literal.2

/-- A string that is not the literal lies in a block that may be written to. -/
theorem buffer_of_notLiteral (shows_ : Shows this text) (notLiteral : text.isLiteral = false) :
    ∃ block, this.buffer = some block ∧ Terminated block text.chars ∧
      block.length = text.capacity ∧
        ∀ {after chars : List UInt8}, Terminated after chars → after.length = block.length →
          chars.length ≤ text.chars.length →
            Shows (this.withBuffer after) { text with chars } := by
  cases shows_ with
  | @inHeap block localString chars strLen size holds localSize localEmpty =>
      refine ⟨block, rfl, holds, size, ?_⟩
      intro after chars holdsAfter same _
      exact inHeap (same.trans size) holdsAfter localSize localEmpty
  | @inObject localString chars strLen localSize holds counted fits =>
      rw [StringText.isLiteral_inObject] at notLiteral
      refine ⟨localString, ?_, holds, localSize, ?_⟩
      · rw [buffer, isLocal_eq ⟨none, localString, strLen⟩ holds, notLiteral]
        rfl
      · intro after chars holdsAfter same shorter
        apply inObject (same.trans localSize) holdsAfter (Nat.le_trans shorter counted)
        exact fun _ => fits (List.isEmpty_eq_false_iff.mp notLiteral)

theorem lt_capacity (shows_ : Shows this text) (notLiteral : text.isLiteral = false) :
    text.length < text.capacity := by
  cases shows_ with
  | inHeap _ _ _ _ => exact Nat.lt_succ_self _
  | inObject _ _ _ fits =>
      rw [StringText.isLiteral_inObject] at notLiteral
      exact fits (List.isEmpty_eq_false_iff.mp notLiteral)

/-! ### One character -/

theorem poke_of_isLiteral (shows_ : Shows this text) (literal : text.isLiteral = true)
    (index : Nat) (c : UInt8) : this.poke index c = none := by
  rw [poke, shows_.buffer_of_isLiteral literal]
  rfl

theorem poke_zero (shows_ : Shows this text) (notLiteral : text.isLiteral = false) {index : Nat}
    (inside : index < text.capacity) :
    ∃ after, this.poke index 0 = some after ∧ Shows after (text.cut index) := by
  rcases shows_.buffer_of_notLiteral notLiteral with ⟨block, buffer_eq, holds, size, writes⟩
  rw [← size] at inside
  rw [poke, buffer_eq, Option.bind_eq_bind, Option.bind_some, store_singleton inside]
  refine ⟨_, rfl, writes (holds.set_zero inside) List.length_set ?_⟩
  exact List.length_take_le' _ _

theorem poke_of_ne (shows_ : Shows this text) (notLiteral : text.isLiteral = false) {index : Nat}
    (inside : index < text.capacity) {c : UInt8} (nonzero : c ≠ 0)
    (notEnd : index ≠ text.chars.length) :
    ∃ after, this.poke index c = some after ∧
      Shows after { text with chars := text.chars.set index c } := by
  rcases shows_.buffer_of_notLiteral notLiteral with ⟨block, buffer_eq, holds, size, writes⟩
  rw [← size] at inside
  rw [poke, buffer_eq, Option.bind_eq_bind, Option.bind_some, store_singleton inside]
  refine ⟨_, rfl, writes (holds.set nonzero notEnd) List.length_set ?_⟩
  rw [List.length_set]

theorem peek_of_isLiteral (shows_ : Shows this text) (literal : text.isLiteral = true)
    (index : Nat) : this.peek index = if index = 0 then some 0 else none := by
  rw [peek, shows_.buffer_of_isLiteral literal]

theorem peek_of_lt (shows_ : Shows this text) (notLiteral : text.isLiteral = false) {index : Nat}
    (inside : index < text.capacity) :
    ∃ c, this.peek index = some c ∧ (index < text.chars.length → text.chars[index]? = some c) ∧
      (index = text.chars.length → c = 0) := by
  rcases shows_.buffer_of_notLiteral notLiteral with ⟨block, buffer_eq, holds, size, _⟩
  rw [← size] at inside
  have here : this.peek index = some block[index] := by
    rw [peek, buffer_eq]
    exact List.getElem?_eq_getElem inside
  refine ⟨block[index], here, ?_, ?_⟩
  · intro within
    rw [← holds.getElem?_lt within]
    exact List.getElem?_eq_getElem inside
  · intro ending
    have last := holds.getElem?_length
    rw [← ending, List.getElem?_eq_getElem inside] at last
    exact Option.some.inj last

/-! ### Cutting -/

theorem notLiteral_of_length_pos (some_char : 0 < text.chars.length) :
    text.isLiteral = false := by
  rw [StringText.isLiteral, Bool.and_eq_false_iff]
  right
  exact List.isEmpty_eq_false_iff.mpr (List.ne_nil_of_length_pos some_char)

theorem cut (shows_ : Shows this text) {index : Nat} (inside : index < text.chars.length) :
    ∃ after, this.poke index 0 = some after ∧ Shows after (text.cut index) := by
  have notLiteral : text.isLiteral = false := notLiteral_of_length_pos (Nat.zero_lt_of_lt inside)
  apply shows_.poke_zero notLiteral
  exact Nat.lt_trans (Nat.lt_of_lt_of_le inside shows_.length_le) (shows_.lt_capacity notLiteral)

theorem terminateAtIndex (shows_ : Shows this text) (notLiteral : text.isLiteral = false)
    {index : Int} (nonneg : 0 ≤ index) (inside : index < text.length) :
    ∃ after, this.terminateAtIndex index = some after ∧ Shows after (text.cut index.toNat) := by
  rw [NString.terminateAtIndex, shows_.length_eq, if_pos ⟨nonneg, inside⟩]
  apply shows_.poke_zero notLiteral
  have beyond := shows_.lt_capacity notLiteral
  omega

theorem terminateAtIndex_eq_none (shows_ : Shows this text) {index : Int}
    (outside : ¬(text.isLiteral = false ∧ 0 ≤ index ∧ index < text.length)) :
    this.terminateAtIndex index = none := by
  rw [NString.terminateAtIndex, shows_.length_eq]
  split
  case isTrue inside =>
    cases literal : text.isLiteral with
    | false => exact absurd ⟨literal, inside⟩ outside
    | true => exact shows_.poke_of_isLiteral literal _ _
  case isFalse => rfl

theorem strip (shows_ : Shows this text) (charSet : NulString) :
    ∃ after, this.strip charSet = some after ∧ Shows after (text.stripped charSet) := by
  have upTo : text.chars.takeWhile (fun c => decide (c ∉ charSet.chars)) =
      text.chars.take (text.chars.findIdx fun c => decide (c ∈ charSet.chars)) := by
    rw [List.takeWhile_eq_take_findIdx_not]
    simp
  rw [NString.strip, shows_.get_chars, StringText.stripped, upTo]
  cases found : text.chars.findIdx? fun c => decide (c ∈ charSet.chars) with
  | none =>
      refine ⟨this, rfl, ?_⟩
      rw [List.findIdx_eq_length_of_false]
      · rw [List.take_length]
        exact shows_
      · exact List.findIdx?_eq_none_iff.mp found
  | some index =>
      rcases List.findIdx?_eq_some_iff_findIdx_eq.mp found with ⟨inside, rfl⟩
      exact shows_.cut inside

theorem stripExtension (shows_ : Shows this text) :
    ∃ after, this.stripExtension = some after ∧ Shows after text.withoutExtension := by
  rw [NString.stripExtension, getExtension, shows_.get_chars, StringText.withoutExtension]
  cases found : lastIndex 46 text.chars with
  | none => exact ⟨this, rfl, shows_⟩
  | some dot =>
      by_cases behind : dot + 1 < text.chars.length
      · simp only [if_pos behind]
        exact shows_.cut (Nat.lt_of_succ_lt behind)
      · simp only [if_neg behind]
        exact ⟨this, rfl, shows_⟩

/-- The character in front of the NUL that `Length` points at. -/
theorem stripTrailingSlash (shows_ : Shows this text)
    (safe : text.isLiteral = false ∨ text.length ≤ 1) :
    ∃ after, this.stripTrailingSlash = some after ∧ Shows after text.withoutTrailingSlash := by
  have count : this.strLen.toNat = text.length := shows_.length_eq
  have untouched (short : text.chars.length ≠ text.length) : text.withoutTrailingSlash = text :=
    if_neg fun both => short both.1
  have nothing (empty : text.chars = []) : text.withoutTrailingSlash = text := by
    rw [StringText.withoutTrailingSlash, empty]
    exact if_neg fun both => Bool.noConfusion both.2
  by_cases zero : this.strLen = 0
  · rw [NString.stripTrailingSlash, if_pos zero]
    have empty : text.chars = [] := by
      apply List.eq_nil_of_length_eq_zero
      apply Nat.le_zero.mp
      apply Nat.le_trans shows_.length_le
      rw [← count, zero]
      exact Nat.le_refl 0
    exact ⟨this, rfl, (nothing empty).symm ▸ shows_⟩
  · have positive : 0 < text.length := by
      rw [← count]
      apply Nat.pos_of_ne_zero
      exact fun none_counted => zero (UInt16.toNat_inj.mp none_counted)
    simp only [NString.stripTrailingSlash, if_neg zero, count]
    cases literal : text.isLiteral with
    | true =>
        have one : text.length - 1 = 0 := by
          rcases safe with notLiteral | short
          · rw [literal] at notLiteral
            contradiction
          · omega
        rw [one, shows_.peek_of_isLiteral literal, if_pos rfl, nothing (chars_of_isLiteral literal)]
        exact ⟨this, rfl, shows_⟩
    | false =>
        have inside : text.length - 1 < text.capacity := by
          have beyond := shows_.lt_capacity literal
          omega
        rcases shows_.peek_of_lt literal inside with ⟨c, reads, within, _⟩
        rcases shows_.poke_zero literal inside with ⟨after, pokes, shows_after⟩
        simp only [reads, Option.bind_eq_bind, Option.bind_some]
        by_cases full : text.chars.length = text.length
        · have last : text.chars.getLast? = some c := by
            rw [List.getLast?_eq_getElem?, full]
            exact within (by omega)
          rw [StringText.withoutTrailingSlash, last, Option.any_some]
          cases slash : isSlash c with
          | true =>
              refine ⟨after, pokes, ?_⟩
              rw [if_pos ⟨full, rfl⟩, List.dropLast_eq_take, full]
              exact shows_after
          | false =>
              simp only [Bool.false_eq_true, and_false, if_false]
              exact ⟨this, rfl, shows_⟩
        · have behind : text.chars.length ≤ text.length - 1 := by
            have shorter := shows_.length_le
            omega
          rw [StringText.cut_of_le behind] at shows_after
          rw [untouched full]
          split
          · exact ⟨after, pokes, shows_after⟩
          · exact ⟨this, rfl, shows_⟩

theorem stripTrailingSlash_eq_none (shows_ : Shows this text)
    (unsafe_ : ¬(text.isLiteral = false ∨ text.length ≤ 1)) : this.stripTrailingSlash = none := by
  rcases not_or.mp unsafe_ with ⟨notOther, long⟩
  have literal : text.isLiteral = true := Bool.eq_true_of_not_eq_false notOther
  have count : this.strLen.toNat = text.length := shows_.length_eq
  have nonzero : this.strLen ≠ 0 := by
    intro zero
    rw [zero] at count
    change 0 = text.length at count
    omega
  rw [NString.stripTrailingSlash, if_neg nonzero, count]
  simp only [shows_.peek_of_isLiteral literal]
  rw [if_neg (by omega)]
  rfl

/-! ### Slashes -/

theorem set_slashed {chars : List UInt8} {i : Nat} {c : UInt8} (reads : chars[i]? = some c) :
    (chars.set i (StringText.slashed c)).take (i + 1) ++
        ((chars.set i (StringText.slashed c)).drop (i + 1)).map StringText.slashed =
      chars.take i ++ (chars.drop i).map StringText.slashed := by
  rcases List.getElem?_eq_some_iff.mp reads with ⟨inside, rfl⟩
  rw [List.drop_set_of_lt (Nat.lt_succ_self i), List.take_set, List.drop_eq_getElem_cons inside,
    List.map_cons, List.take_succ_eq_append_getElem inside,
    List.set_append_right _ _ (by simp), List.append_assoc]
  simp [Nat.min_eq_left (Nat.le_of_lt inside)]

/-- One round of `ConvertBackslashes`. -/
theorem convertRound (shows_ : Shows this text) (notLiteral : text.isLiteral = false) {i : Nat}
    (inside : i < text.capacity) :
    ∃ next chars, this.convertRound i = some next ∧ Shows next { text with chars } ∧
      chars.length = text.chars.length ∧
        chars.take (i + 1) ++ (chars.drop (i + 1)).map StringText.slashed =
          text.chars.take i ++ (text.chars.drop i).map StringText.slashed := by
  rcases shows_.peek_of_lt notLiteral inside with ⟨c, reads, within, ending⟩
  rw [NString.convertRound, reads, Option.bind_eq_bind, Option.bind_some]
  by_cases backslash : c = 92
  · subst backslash
    have notEnd : i ≠ text.chars.length := fun last => absurd (ending last) (by decide)
    rcases shows_.poke_of_ne notLiteral inside (by decide : (47 : UInt8) ≠ 0) notEnd with
      ⟨next, pokes, shows_next⟩
    refine ⟨next, text.chars.set i 47, pokes, shows_next, List.length_set, ?_⟩
    by_cases before : i < text.chars.length
    · exact set_slashed (within before)
    · rw [List.set_eq_of_length_le (Nat.le_of_not_lt before)]
      rw [List.take_of_length_le (by omega), List.drop_eq_nil_of_le (by omega),
        List.take_of_length_le (by omega), List.drop_eq_nil_of_le (by omega)]
  · rw [if_neg backslash]
    refine ⟨this, text.chars, rfl, shows_, rfl, ?_⟩
    by_cases before : i < text.chars.length
    · have kept : text.chars.set i (StringText.slashed c) = text.chars := by
        rw [StringText.slashed, if_neg backslash]
        rcases List.getElem?_eq_some_iff.mp (within before) with ⟨_, rfl⟩
        exact List.set_getElem_self _
      have round := set_slashed (within before)
      rw [kept] at round
      exact round
    · rw [List.take_of_length_le (by omega), List.drop_eq_nil_of_le (by omega),
        List.take_of_length_le (by omega), List.drop_eq_nil_of_le (by omega)]

theorem convertLoop (shows_ : Shows this text) (notLiteral : text.isLiteral = false)
    (i rounds : Nat) (inside : i + rounds ≤ text.capacity)
    (all : text.chars.length ≤ i + rounds) :
    ∃ after, this.convertLoop i rounds = some after ∧
      Shows after { text with
        chars := text.chars.take i ++ (text.chars.drop i).map StringText.slashed } := by
  induction rounds generalizing this text i with
  | zero =>
      refine ⟨this, rfl, ?_⟩
      rw [Nat.add_zero] at all
      rw [List.take_of_length_le all, List.drop_eq_nil_of_le all, List.map_nil, List.append_nil]
      exact shows_
  | succ rounds ih =>
      rcases shows_.convertRound notLiteral (by omega : i < text.capacity) with
        ⟨next, chars, round, shows_next, same, chars_eq⟩
      have notLiteral_next : StringText.isLiteral { text with chars } = false := by
        rw [StringText.isLiteral] at notLiteral ⊢
        cases onHeap : text.onHeap with
        | true => rfl
        | false =>
            rw [onHeap, Bool.not_false, Bool.true_and, List.isEmpty_eq_false_iff] at notLiteral
            rw [Bool.not_false, Bool.true_and, List.isEmpty_eq_false_iff]
            apply List.ne_nil_of_length_pos
            rw [same]
            exact List.length_pos_of_ne_nil notLiteral
      rcases ih shows_next notLiteral_next (i + 1) (by
          change i + 1 + rounds ≤ text.capacity
          omega) (by
          change chars.length ≤ i + 1 + rounds
          omega) with ⟨after, loop, shows_after⟩
      simp only [chars_eq] at shows_after
      refine ⟨after, ?_, shows_after⟩
      rw [NString.convertLoop, round]
      exact loop

theorem convertBackslashes (shows_ : Shows this text)
    (safe : text.isLiteral = false ∨ text.length = 0) :
    ∃ after, this.convertBackslashes = some after ∧ Shows after text.withSlashes := by
  have count : this.strLen.toNat = text.length := shows_.length_eq
  rw [NString.convertBackslashes, count]
  cases literal : text.isLiteral with
  | true =>
      have zero : text.length = 0 := by
        rcases safe with notLiteral | zero
        · rw [literal] at notLiteral
          contradiction
        · exact zero
      have same : text.withSlashes = text := by
        rw [StringText.withSlashes, chars_of_isLiteral literal, List.map_nil,
          ← chars_of_isLiteral literal]
      rw [zero, NString.convertLoop, NString.convertRound, shows_.peek_of_isLiteral literal, same]
      exact ⟨this, rfl, shows_⟩
  | false =>
      have beyond := shows_.lt_capacity literal
      have shorter := shows_.length_le
      rcases shows_.convertLoop literal 0 (text.length + 1) (by omega) (by omega)
        with ⟨after, loop, shows_after⟩
      exact ⟨after, loop, shows_after⟩

theorem convertBackslashes_eq_none (shows_ : Shows this text)
    (unsafe_ : ¬(text.isLiteral = false ∨ text.length = 0)) : this.convertBackslashes = none := by
  rcases not_or.mp unsafe_ with ⟨notOther, some_counted⟩
  have literal : text.isLiteral = true := Bool.eq_true_of_not_eq_false notOther
  have count : this.strLen.toNat = text.length := shows_.length_eq
  rcases Nat.exists_eq_succ_of_ne_zero some_counted with ⟨rounds, length_eq⟩
  rw [NString.convertBackslashes, count, length_eq, NString.convertLoop, NString.convertRound,
    shows_.peek_of_isLiteral literal]
  change this.convertLoop 1 (rounds + 1) = none
  rw [NString.convertLoop, NString.convertRound, shows_.peek_of_isLiteral literal]
  rfl

end Shows

end NString

end SunPush
