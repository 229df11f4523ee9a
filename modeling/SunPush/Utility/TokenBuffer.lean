import SunPush.Utility.TokenText

/-!
# The bounds of the token buffer

The loops of the tokenizers store without a check, so a call overruns the token
buffer exactly when the text of the token does not leave room for its terminator.
A cell is copied by `strncpy`, which stays in the buffer but leaves out the
terminator of a longer text.
-/

namespace SunPush

open TokenChar TextBuffer

/-- Within the count the string is copied, and zeros behind it. -/
theorem strncpy_inside (destination : Memory) (source : NulString) {count i : Nat}
    (within : i < count) : strncpy destination source count i = source.chars.getD i 0 := by
  have padded : i < ((source.chars ++ List.replicate count 0).take count).length := by
    simpa using within
  have stored := @Memory.write_inside destination 0 _ i padded
  rw [Int.zero_add, List.getElem_take] at stored
  rw [strncpy, stored]
  by_cases inside : i < source.chars.length
  · rw [List.getElem_append_left inside, List.getD_eq_getElem _ _ inside]
  · have behind := Nat.le_of_not_lt inside
    rw [List.getElem_append_right behind, List.getElem_replicate, List.getD_eq_default _ _ behind]

/-- A string with its padding has a zero exactly when it is shorter than the count. -/
theorem exists_strncpy_eq_zero_iff (destination : Memory) (source : NulString) (count : Nat) :
    (∃ i : Nat, i < count ∧ strncpy destination source count i = 0) ↔
      source.chars.length < count := by
  constructor
  · rintro ⟨i, within, zero⟩
    by_contra long
    have inside : i < source.chars.length := by omega
    rw [strncpy_inside _ _ within, List.getD_eq_getElem _ _ inside] at zero
    apply source.noNul
    rw [← zero]
    exact List.getElem_mem inside
  · intro short
    refine ⟨source.chars.length, short, ?_⟩
    rw [strncpy_inside _ _ short, List.getD_eq_default _ _ (Nat.le_refl _)]

namespace SolarFileReader

/-- There is a terminator in the token buffer. -/
def Terminated (tokenString : Memory) : Prop :=
  ∃ i : Nat, i < maxTokenBufferSize ∧ tokenString i = 0

/-- A call has stored nothing behind the token buffer, and when it returns there is a terminator in
the buffer. -/
def Bounded : Except TokenFault (TokenType × SolarFileReader) → Prop
  | .ok (_, after) => Terminated after.tokenString
  | .error fault => fault ≠ .overrun

def TokenSafe (reader : SolarFileReader) : Prop :=
  ∀ invocations, Bounded (reader.getNextTokenType invocations)

theorem terminated_write (tokenString : Memory) {chars : List UInt8}
    (short : chars.length < maxTokenBufferSize) :
    Terminated (tokenString.write 0 (chars ++ [0])) := by
  refine ⟨chars.length, short, ?_⟩
  have inside : chars.length < (chars ++ [0]).length := by simp
  have stored := @Memory.write_inside tokenString 0 _ _ inside
  rw [Int.zero_add, List.getElem_concat_length rfl] at stored
  exact stored

theorem terminated_empty (tokenString : Memory) : Terminated (tokenString.write 0 [0]) :=
  @terminated_write tokenString [] (by decide)

/-- No text that stands for an empty cell has a marker. -/
theorem parsercell_blank {str : List UInt8} (blank : str ∈ blankCells)
    (funcCB : Option LanFindCallback) (invocations : Nat) :
    ParserCell.parsercell funcCB invocations str = some str := by
  have plain : ParserCell.nextMarker str = none := by
    revert str
    decide
  cases funcCB with
  | none => rfl
  | some funcCB =>
      have round : ParserCell.parserRound funcCB str = none := by
        rw [ParserCell.parserRound, plain]
        rfl
      rw [ParserCell.parsercell]
      cases invocations with
      | zero => rw [ParserCell.parserLoop, round]; rfl
      | succ invocations => rw [ParserCell.parserLoop, round]

theorem length_cStr_blank {str : List UInt8} (blank : str ∈ blankCells) :
    (cStr str).chars.length < maxTokenBufferSize := by
  revert str
  decide

/-- A cell is safe when what `_parsercell` makes of it is short. -/
theorem bounded_readCell_iff (invocations : Nat) (c : UInt8) (reader : SolarFileReader) :
    Bounded (readCell invocations c reader) ↔
      ∀ cell ∈ ParserCell.parsercell reader.funcCB invocations
        (tokenText .tab c reader.text.rest), (cStr cell).chars.length < maxTokenBufferSize := by
  rw [readCell_eq]
  generalize tokenText .tab c reader.text.rest = str
  by_cases blank : str ∈ blankCells
  · rw [parsercell_blank blank]
    simp only [if_pos blank]
    constructor
    · intro _ cell made
      rw [← Option.some.inj made]
      exact length_cStr_blank blank
    · intro _
      exact terminated_empty _
  · simp only [if_neg blank]
    cases made : ParserCell.parsercell reader.funcCB invocations str with
    | none => simp [Bounded]
    | some cell =>
        simp only [Bounded, Option.mem_def, Option.some.injEq, forall_eq']
        exact exists_strncpy_eq_zero_iff reader.tokenString (cStr cell) 1024

/-- A text that is stored as it is is safe when it is short. -/
theorem Stores.bounded_iff {chars : List UInt8} {reader : SolarFileReader}
    {result : Except TokenFault (TokenType × SolarFileReader)}
    (stores : Stores chars reader result) :
    Bounded result ↔ chars.length < maxTokenBufferSize := by
  rcases stores with ⟨type, number, count, -, -, rfl⟩
  by_cases short : chars.length < maxTokenBufferSize
  · rw [if_pos short]
    exact ⟨fun _ => short, fun _ => terminated_write _ short⟩
  · rw [if_neg short]
    exact ⟨fun safe => absurd rfl safe, fun fits => absurd fits short⟩

/-- In every mode a call is safe exactly when the token that it would read fits. -/
theorem tokenSafe_iff_fitsToken (reader : SolarFileReader) :
    reader.TokenSafe ↔ reader.FitsToken := by
  by_cases separates : reader.mode = .error
  · have safe : reader.TokenSafe := by
      intro invocations
      rw [getNextTokenType, separates]
      exact terminated_empty reader.tokenString
    refine ⟨fun _ _ => ?_, fun _ => safe⟩
    simp only [separates, tokenText]
    rw [if_neg (by decide)]
    decide
  · by_cases ended : reader.text.getValidData.1 = ends
    · refine ⟨fun _ valid => absurd ended valid, fun _ invocations => ?_⟩
      rw [getNextTokenType_eq separates, if_pos ended]
      exact terminated_empty reader.tokenString
    · simp only [TokenSafe, getNextTokenType_eq separates, if_neg ended]
      by_cases cell : reader.mode = .tab
      · simp only [FitsToken, cell, tokenize, bounded_readCell_iff]
        exact ⟨fun safe _ => safe, fun fits => fits ended⟩
      · have bounded (invocations : Nat) := (stores_tokenize invocations separates cell
          reader.text.getValidData.1
          { reader.clear with text := reader.text.getValidData.2 }).bounded_iff
        simp only [FitsToken, if_neg cell, bounded]
        exact ⟨fun safe _ => safe 0, fun fits _ => fits ended⟩

theorem addressable_longWord : (List.replicate 1024 (97 : UInt8)).length + 4 ≤ 2 ^ 32 := by
  rw [List.length_replicate]
  decide

/-- A word that is as long as the token buffer. -/
def longWord : SolarFileReader where
  tokenNumber := []
  tokenString := Memory.zero
  text := ⟨List.replicate 1024 97, 0, addressable_longWord⟩
  funcCB := none
  mode := .whitespace

theorem not_tokenSafe_longWord : ¬longWord.TokenSafe := by
  intro safe
  have chars : longWord.text.rest = 97 :: List.replicate 1023 97 := rfl
  have first : longWord.text.getValidData = (97, longWord.text.skip 1) := by
    have plain : ¬StartsComment longWord.text.rest := by
      rw [chars, startsComment_cons]
      rintro ⟨is_slash, -⟩
      exact absurd is_slash (by decide)
    rw [getValidData_plain plain]
    · rw [getchar, getcurchar_cons chars]
    · rw [getcurchar_cons chars]
      rfl
  have separates : longWord.mode ≠ .error := by decide
  have raw : longWord.mode ≠ .tab := by decide
  have bounded := safe 0
  rw [getNextTokenType_eq separates, first, if_neg (by decide),
    (stores_tokenize 0 separates raw _ _).bounded_iff] at bounded
  have word : tokenText longWord.mode 97 (longWord.text.skip 1).rest =
      97 :: List.replicate 1023 97 := by
    rw [rest_skip_one chars]
    change 97 :: tokenChars (fun c => !isSpace c) _ = _
    rw [tokenChars, List.takeWhile_replicate, if_pos (by decide)]
  rw [word, List.length_cons, List.length_replicate] at bounded
  exact absurd bounded (by decide)

end SolarFileReader

end SunPush
