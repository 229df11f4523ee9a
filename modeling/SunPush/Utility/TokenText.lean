import Mathlib.Data.List.TakeWhile
import SunPush.Utility.SolarFileReader

/-!
# The text of a token

What the loops of the tokenizers read, as a function of the characters from the
position on: a token ends before the first character that does not belong to it,
a quoted string has its escapes resolved, and a cell loses the last quotation mark
of each row of them.  The loops run as long as the text fits the token buffer.
-/

namespace SunPush

open TokenChar

namespace TextBuffer

/-- The characters up to the first one that does not belong to the token. -/
def tokenChars (accept : UInt8 → Bool) (rest : List UInt8) : List UInt8 :=
  rest.takeWhile fun c => c != ends && accept c

/-- The characters up to a quotation mark.  A backslash stands for the character behind it, which at
the end of the buffer is `TOKEN_END`. -/
def quotedText : List UInt8 → List UInt8
  | [] => []
  | c :: rest =>
      if c = ends ∨ c = quote then []
      else if c = backslash then rest.headD ends :: quotedText rest.tail
      else c :: quotedText rest
termination_by rest => rest.length

/-- The characters up to a tabulator or the end of the line. -/
def cellChars (rest : List UInt8) : List UInt8 :=
  tokenChars (fun c => !isNewline c && c != tab) rest

/-- A cell without the quotation marks that no other one follows. -/
def cellText : List UInt8 → List UInt8
  | [] => []
  | c :: rest =>
      if c = quote ∧ rest.head? ≠ some quote then cellText rest
      else c :: cellText rest

theorem tokenChars_cons {accept : UInt8 → Bool} {c : UInt8} (belongs : c ≠ ends ∧ accept c = true)
    (rest : List UInt8) : tokenChars accept (c :: rest) = c :: tokenChars accept rest := by
  rw [tokenChars, List.takeWhile_cons_of_pos]
  · rfl
  · simpa using belongs

theorem tokenChars_stop {accept : UInt8 → Bool} {c : UInt8}
    (foreign : ¬(c ≠ ends ∧ accept c = true)) (rest : List UInt8) :
    tokenChars accept (c :: rest) = [] := by
  rw [tokenChars, List.takeWhile_cons_of_neg]
  simpa using foreign

/-- A token ends in front of the first character that does not belong to it. -/
theorem tokenChars_append {accept : UInt8 → Bool} {chars : List UInt8} {next : UInt8}
    (belongs : ∀ c ∈ chars, c ≠ ends ∧ accept c = true) (stops : accept next = false)
    (more : List UInt8) : tokenChars accept (chars ++ next :: more) = chars := by
  induction chars with
  | nil =>
      apply tokenChars_stop
      rw [stops]
      exact fun accepted => Bool.false_ne_true accepted.2
  | cons c chars ih =>
      rw [List.forall_mem_cons] at belongs
      rw [List.cons_append, tokenChars_cons belongs.1, ih belongs.2]

theorem store_of_lt {tokenString : Memory} {pbp : Nat} (within : pbp < maxTokenBufferSize)
    (c : UInt8) : store tokenString pbp c = .ok (tokenString.write pbp [c]) :=
  if_pos within

theorem store_of_le {tokenString : Memory} {pbp : Nat} (behind : maxTokenBufferSize ≤ pbp)
    (c : UInt8) : store tokenString pbp c = .error .overrun :=
  if_neg (Nat.not_lt_of_le behind)

/-- The result of a loop that stores so many characters from an index on. -/
def stored (tokenString : Memory) (pbp : Nat) (chars : List UInt8) (text : TextBuffer) :
    Except TokenFault (Memory × Nat × TextBuffer) :=
  if pbp + chars.length ≤ maxTokenBufferSize then
    .ok (tokenString.write pbp chars, pbp + chars.length, text)
  else .error .overrun

theorem stored_nil {tokenString : Memory} {pbp : Nat} (room : pbp ≤ maxTokenBufferSize)
    (text : TextBuffer) : stored tokenString pbp [] text = .ok (tokenString, pbp, text) := by
  rw [stored, if_pos (by simpa using room), Memory.write_nil]
  rfl

/-- A loop that stores a character and then others stores all of them. -/
theorem stored_cons {tokenString : Memory} {pbp : Nat} {c : UInt8} {chars : List UInt8}
    {text : TextBuffer}
    (loop : Memory → Nat → Except TokenFault (Memory × Nat × TextBuffer))
    (later : pbp + 1 ≤ maxTokenBufferSize → ∀ tokenString,
      loop tokenString (pbp + 1) = stored tokenString (pbp + 1) chars text) :
    (do
      let tokenString ← store tokenString pbp c
      loop tokenString (pbp + 1)) = stored tokenString pbp (c :: chars) text := by
  by_cases within : pbp < maxTokenBufferSize
  · rw [store_of_lt within]
    change loop (tokenString.write pbp [c]) (pbp + 1) = _
    rw [later within, stored, stored, Memory.write_cons _ _ c chars, List.length_cons,
      Nat.add_assoc, Nat.add_comm 1, Int.natCast_add, Int.natCast_one]
  · have behind := Nat.le_of_not_lt within
    rw [store_of_le behind, stored, if_neg]
    · rfl
    · rw [List.length_cons]
      omega

theorem copyWhile_eq (accept : UInt8 → Bool) {tokenString : Memory} {pbp : Nat}
    (room : pbp ≤ maxTokenBufferSize) (text : TextBuffer) :
    copyWhile accept tokenString pbp text =
      stored tokenString pbp (tokenChars accept text.rest)
        (text.skip ((tokenChars accept text.rest).length + 1)) := by
  induction chars : text.rest generalizing text tokenString pbp with
  | nil =>
      have ended := getcurchar_ended chars
      rw [copyWhile, if_neg (fun going => going.1 ended)]
      exact (stored_nil room _).symm
  | cons c rest ih =>
      rw [copyWhile, getcurchar_cons chars]
      split
      case isTrue belongs =>
        rw [tokenChars_cons belongs]
        apply stored_cons fun tokenString pbp => copyWhile accept tokenString pbp (text.skip 1)
        intro room tokenString
        rw [ih room _ (rest_skip_one chars), skip_skip, List.length_cons, Nat.add_comm 1]
      case isFalse foreign =>
        rw [tokenChars_stop foreign]
        exact (stored_nil room _).symm

/-- A text with its terminator, and what is done with it. -/
theorem stored_terminated {α : Type} (tokenString : Memory) (chars : List UInt8)
    (text : TextBuffer) (finish : Memory → Nat → TextBuffer → Except TokenFault α) :
    (do
      let (tokenString, pbp, text) ← stored tokenString 0 chars text
      let tokenString ← store tokenString pbp 0
      finish tokenString pbp text) =
      if chars.length < maxTokenBufferSize then
        finish (tokenString.write 0 (chars ++ [0])) chars.length text
      else .error .overrun := by
  rw [stored, Nat.zero_add]
  by_cases fits : chars.length < maxTokenBufferSize
  · rw [if_pos (Nat.le_of_lt fits), if_pos fits, Memory.write_append, Int.zero_add]
    change (do
      let tokenString ← store _ chars.length 0
      finish tokenString chars.length text) = _
    rw [store_of_lt fits]
    rfl
  · rw [if_neg fits]
    by_cases full : chars.length ≤ maxTokenBufferSize
    · rw [if_pos full]
      change (do
        let tokenString ← store _ chars.length 0
        finish tokenString chars.length text) = _
      rw [store_of_le (Nat.le_of_not_lt fits)]
      rfl
    · rw [if_neg full]
      rfl

/-- The text of a token with its terminator, and the position behind it. -/
theorem copyToken_eq (accept : UInt8 → Bool) (tokenString : Memory) (c : UInt8)
    (text : TextBuffer) :
    copyToken accept tokenString c text =
      if (c :: tokenChars accept text.rest).length < maxTokenBufferSize then
        .ok (tokenString.write 0 (c :: tokenChars accept text.rest ++ [0]),
          (c :: tokenChars accept text.rest).length,
          text.skip (tokenChars accept text.rest).length)
      else .error .overrun := by
  have copies : (do
      let tokenString ← store tokenString 0 c
      copyWhile accept tokenString 1 text) =
      stored tokenString 0 (c :: tokenChars accept text.rest)
        (text.skip ((tokenChars accept text.rest).length + 1)) :=
    stored_cons (fun tokenString pbp => copyWhile accept tokenString pbp text)
      fun room tokenString => copyWhile_eq accept room text
  have terminated := stored_terminated tokenString (c :: tokenChars accept text.rest)
    (text.skip ((tokenChars accept text.rest).length + 1))
    fun tokenString pbp text => .ok (tokenString, pbp, text.rewind 1)
  rw [rewind_skip] at terminated
  rw [copyToken, ← bind_assoc, copies]
  exact terminated

/-- The text between quotation marks, and the position behind them.  Behind a backslash at the end
of the buffer it is two behind the buffer. -/
theorem copyQuoted_eq (text : TextBuffer) :
    ∃ count, count ≤ min (2 * text.rest.length + 1) (text.rest.length + 2) ∧
      ∀ (tokenString : Memory) {pbp : Nat}, pbp ≤ maxTokenBufferSize →
        copyQuoted tokenString pbp text =
          stored tokenString pbp (quotedText text.rest) (text.skip count) := by
  induction chars : text.rest using quotedText.induct generalizing text with
  | case1 =>
      have ended := getcurchar_ended chars
      refine ⟨1, by simp, ?_⟩
      intro tokenString pbp room
      rw [copyQuoted, if_neg (fun going => going.1 ended), quotedText, stored_nil room]
  | case2 c rest stop =>
      refine ⟨1, by simp, ?_⟩
      intro tokenString pbp room
      rw [copyQuoted, getcurchar_cons chars, if_neg (by rwa [← not_or, not_not]), quotedText,
        if_pos stop, stored_nil room]
  | case3 rest going ih =>
      have escaped : text.getescaped = (rest.headD ends, text.skip 2) := by
        rw [getescaped, getcurchar_cons chars, if_pos rfl, getchar, skip_skip, getcurchar_eq,
          rest_skip_one chars]
      have behind : (text.skip 2).rest = rest.tail := by
        rw [rest_skip (by simp [chars]) (by omega), chars, List.drop_succ_cons, List.drop_one]
      rcases ih _ behind with ⟨count, count_le, copies⟩
      refine ⟨2 + count, ?_, ?_⟩
      · rw [List.length_tail] at count_le
        rw [List.length_cons]
        omega
      · intro tokenString pbp room
        rw [copyQuoted, getcurchar_cons chars, if_pos (not_or.mp going), escaped, quotedText,
          if_neg going, if_pos rfl, ← skip_skip]
        exact stored_cons (fun tokenString pbp => copyQuoted tokenString pbp (text.skip 2))
          fun room tokenString => copies tokenString room
  | case4 c rest going plain ih =>
      have single : text.getescaped = (c, text.skip 1) := by
        rw [getescaped, getcurchar_cons chars, if_neg plain, getchar, getcurchar_cons chars]
      rcases ih _ (rest_skip_one chars) with ⟨count, count_le, copies⟩
      refine ⟨1 + count, ?_, ?_⟩
      · rw [List.length_cons]
        omega
      · intro tokenString pbp room
        rw [copyQuoted, getcurchar_cons chars, if_pos (not_or.mp going), single, quotedText,
          if_neg going, if_neg plain, ← skip_skip]
        exact stored_cons (fun tokenString pbp => copyQuoted tokenString pbp (text.skip 1))
          fun room tokenString => copies tokenString room

theorem cellLoop_eq (cell : List UInt8 × Bool) (text : TextBuffer) :
    cellLoop cell text = ((cellChars text.rest).foldl cellStep cell,
      text.skip ((cellChars text.rest).length + 1)) := by
  induction chars : text.rest generalizing text cell with
  | nil =>
      have ended := getcurchar_ended chars
      rw [cellLoop, if_neg (fun going => going.1 ended)]
      rfl
  | cons c rest ih =>
      rw [cellLoop, getcurchar_cons chars]
      split
      case isTrue belongs =>
        have first : cellChars (c :: rest) = c :: cellChars rest := by
          apply tokenChars_cons
          simpa using belongs
        rw [first, ih _ _ (rest_skip_one chars), skip_skip, List.length_cons, Nat.add_comm 1]
        rfl
      case isFalse foreign =>
        have first : cellChars (c :: rest) = [] := by
          apply tokenChars_stop
          simpa using foreign
        rw [first]
        rfl

theorem cellText_cons_of_ne {c : UInt8} (plain : c ≠ quote) (rest : List UInt8) :
    cellText (c :: rest) = c :: cellText rest := by
  rw [cellText, if_neg]
  rintro ⟨is_quote, -⟩
  exact plain is_quote

theorem cellText_quote_cons_of_ne {c : UInt8} (plain : c ≠ quote) (rest : List UInt8) :
    cellText (quote :: c :: rest) = cellText (c :: rest) := by
  rw [cellText, if_pos]
  exact ⟨rfl, fun same => plain (Option.some.inj same)⟩

theorem cellText_quote_quote (rest : List UInt8) :
    cellText (quote :: quote :: rest) = quote :: cellText (quote :: rest) := by
  rw [cellText, if_neg]
  simp

/-- The flag stands for a quotation mark that is dropped unless another one follows. -/
theorem closeCell_foldl (chars : List UInt8) (str : List UInt8) :
    closeCell (chars.foldl cellStep (str, false)) = str ++ cellText chars ∧
      closeCell (chars.foldl cellStep (str ++ [quote], true)) =
        str ++ cellText (quote :: chars) := by
  induction chars generalizing str with
  | nil => simp [closeCell, cellText]
  | cons c chars ih =>
      by_cases mark : c = quote
      · subst mark
        refine ⟨(ih str).2, ?_⟩
        rw [cellText_quote_quote]
        have tail := (ih (str ++ [quote])).2
        rw [List.append_assoc str [quote] (cellText _)] at tail
        exact tail
      · have steps : cellStep (str, false) c = (str ++ [c], false) ∧
            cellStep (str ++ [quote], true) c = (str ++ [c], false) := by
          simp [cellStep, mark]
        have tail := (ih (str ++ [c])).1
        rw [cellText_quote_cons_of_ne mark, cellText_cons_of_ne mark]
        rw [List.append_assoc] at tail
        refine ⟨?_, ?_⟩
        · rw [List.foldl_cons, steps.1]
          exact tail
        · rw [List.foldl_cons, steps.2]
          exact tail

theorem closeCell_cellLoop (c : UInt8) (text : TextBuffer) :
    closeCell (cellLoop ([c], c == quote) text).1 = cellText (c :: cellChars text.rest) := by
  rw [cellLoop_eq]
  by_cases mark : c = quote
  · subst mark
    exact (closeCell_foldl (cellChars text.rest) []).2
  · rw [cellText_cons_of_ne mark, beq_eq_false_iff_ne.mpr mark]
    exact (closeCell_foldl (cellChars text.rest) [c]).1

end TextBuffer

namespace SolarFileReader

open TextBuffer

/-- The text of the token that begins with a character. -/
def tokenText : SeparatorMode → UInt8 → List UInt8 → List UInt8
  | .error, _, _ => []
  | .whitespace, c, rest =>
      c :: tokenChars (if startsNumber c then inNumber else fun c => !isSpace c) rest
  | .quotationMarkForStr, c, rest =>
      if startsNumber c then c :: tokenChars inNumber rest
      else if c = quote then quotedText rest
      else [c]
  | .onlyNewline, c, rest => c :: tokenChars (fun c => !isNewline c) rest
  | .whitespaceOnlyString, c, rest => c :: tokenChars (fun c => !isSpace c) rest
  | .tab, c, rest => cellText (c :: cellChars rest)

/-- What a tokenizer does with the first character of a token. -/
def tokenize (invocations : Nat) :
    SeparatorMode → UInt8 → SolarFileReader → Except TokenFault (TokenType × SolarFileReader)
  | .error, _ => fun reader => .ok (.tokenError, reader)
  | .whitespace, c =>
      if startsNumber c then readNumber c else readString (fun c => !isSpace c) c
  | .quotationMarkForStr, c =>
      if startsNumber c then readNumber c
      else if c = quote then readQuoted
      else readExtra c
  | .onlyNewline, c => readString (fun c => !isNewline c) c
  | .whitespaceOnlyString, c => readString (fun c => !isSpace c) c
  | .tab, c => readCell invocations c

theorem getNextTokenType_eq {reader : SolarFileReader} (separates : reader.mode ≠ .error)
    (invocations : Nat) :
    reader.getNextTokenType invocations =
      if reader.text.getValidData.1 = ends then
        .ok (.tokenEnd, { reader.clear with text := reader.text.getValidData.2 })
      else tokenize invocations reader.mode reader.text.getValidData.1
        { reader.clear with text := reader.text.getValidData.2 } := by
  have tokenizer : reader.getNextTokenType invocations =
      reader.clear.withValidData (tokenize invocations reader.mode) := by
    rw [getNextTokenType]
    cases mode : reader.mode with
    | error => exact absurd mode separates
    | _ => rfl
  rw [tokenizer]
  rfl

/-- A tokenizer that stores a text: the call ends behind it, in or a little behind the buffer, or
the text does not fit. -/
def Stores (chars : List UInt8) (reader : SolarFileReader)
    (result : Except TokenFault (TokenType × SolarFileReader)) : Prop :=
  ∃ type number count, type ≠ .tokenEnd ∧ count ≤ reader.text.rest.length + 2 ∧
    result = if chars.length < maxTokenBufferSize then
        .ok (type, { reader with
          tokenNumber := number
          tokenString := reader.tokenString.write 0 (chars ++ [0])
          text := reader.text.skip count })
      else .error .overrun

theorem length_tokenChars_le (accept : UInt8 → Bool) (rest : List UInt8) :
    (tokenChars accept rest).length ≤ rest.length :=
  (List.takeWhile_prefix _).length_le

theorem readString_eq (accept : UInt8 → Bool) (c : UInt8) (reader : SolarFileReader) :
    readString accept c reader =
      if (c :: tokenChars accept reader.text.rest).length < maxTokenBufferSize then
        .ok (.tokenString, { reader with
          tokenString :=
            reader.tokenString.write 0 (c :: tokenChars accept reader.text.rest ++ [0])
          text := reader.text.skip (tokenChars accept reader.text.rest).length })
      else .error .overrun := by
  rw [readString, copyToken_eq]
  split
  · rfl
  · rfl

theorem stores_readString (accept : UInt8 → Bool) (c : UInt8) (reader : SolarFileReader) :
    Stores (c :: tokenChars accept reader.text.rest) reader (readString accept c reader) := by
  have bounded := length_tokenChars_le accept reader.text.rest
  exact ⟨_, _, _, by decide, by omega, readString_eq accept c reader⟩

theorem stores_readNumber (c : UInt8) (reader : SolarFileReader) :
    Stores (c :: tokenChars inNumber reader.text.rest) reader (readNumber c reader) := by
  have bounded := length_tokenChars_le inNumber reader.text.rest
  refine ⟨.tokenNumber,
    (reader.tokenString.write 0 (c :: tokenChars inNumber reader.text.rest ++ [0])).read 0
      (c :: tokenChars inNumber reader.text.rest).length,
    (tokenChars inNumber reader.text.rest).length, by decide, by omega, ?_⟩
  rw [readNumber, copyToken_eq]
  split
  · rfl
  · rfl

theorem stores_readQuoted (reader : SolarFileReader) :
    Stores (quotedText reader.text.rest) reader (readQuoted reader) := by
  rcases copyQuoted_eq reader.text with ⟨count, bounded, copies⟩
  refine ⟨.tokenString, reader.tokenNumber, count, by decide,
    Nat.le_trans bounded (Nat.min_le_right _ _), ?_⟩
  rw [readQuoted, copies _ (by decide)]
  exact stored_terminated _ _ _ fun tokenString _ text =>
    .ok (TokenType.tokenString, { reader with tokenString, text })

theorem stores_readExtra (c : UInt8) (reader : SolarFileReader) :
    Stores [c] reader (readExtra c reader) := by
  refine ⟨.tokenExtra, reader.tokenNumber, 0, by decide, Nat.zero_le _, ?_⟩
  have terminated : reader.tokenString.write 0 ([c] ++ [0]) =
      (reader.tokenString.write 0 [c]).write 1 [0] :=
    Memory.write_append _ _ [c] [0]
  rw [TextBuffer.skip_zero, if_pos (by simp [maxTokenBufferSize]), terminated]
  rfl

/-- Outside the mode for cells a tokenizer stores the text as it is. -/
theorem stores_tokenize (invocations : Nat) {mode : SeparatorMode} (separates : mode ≠ .error)
    (raw : mode ≠ .tab) (c : UInt8) (reader : SolarFileReader) :
    Stores (tokenText mode c reader.text.rest) reader (tokenize invocations mode c reader) := by
  cases mode with
  | error => contradiction
  | tab => contradiction
  | onlyNewline => exact stores_readString _ c reader
  | whitespaceOnlyString => exact stores_readString _ c reader
  | whitespace =>
      simp only [tokenText, tokenize]
      split
      · exact stores_readNumber c reader
      · exact stores_readString _ c reader
  | quotationMarkForStr =>
      simp only [tokenText, tokenize]
      split
      · exact stores_readNumber c reader
      · split
        · exact stores_readQuoted reader
        · exact stores_readExtra c reader

/-- The call for a cell ends in front of the character behind it. -/
theorem readCell_eq (invocations : Nat) (c : UInt8) (reader : SolarFileReader) :
    readCell invocations c reader =
      let str := tokenText .tab c reader.text.rest
      let after := { reader with
        tokenNumber := (cStr str).chars
        text := reader.text.skip (cellChars reader.text.rest).length }
      if str ∈ blankCells then
        .ok (.tokenString, { after with tokenString := reader.tokenString.write 0 [0] })
      else match ParserCell.parsercell reader.funcCB invocations str with
        | some str =>
            .ok (.tokenString, { after with
              tokenString := strncpy reader.tokenString (cStr str) 1024 })
        | none => .error .unfinished := by
  simp only [readCell, closeCell_cellLoop, tokenText]
  simp only [cellLoop_eq, rewind_skip]
  rfl

theorem tokenize_ok {invocations : Nat} {mode : SeparatorMode} {c : UInt8}
    {reader after : SolarFileReader} {type : TokenType} (separates : mode ≠ .error)
    (returned : tokenize invocations mode c reader = .ok (type, after)) :
    type ≠ .tokenEnd ∧ after.mode = reader.mode ∧ after.funcCB = reader.funcCB ∧
      ∃ count, count ≤ reader.text.rest.length + 2 ∧ after.text = reader.text.skip count := by
  by_cases cell : mode = .tab
  · subst cell
    have bounded : (cellChars reader.text.rest).length ≤ reader.text.rest.length :=
      length_tokenChars_le _ _
    rw [tokenize, readCell_eq] at returned
    simp only at returned
    split at returned
    · cases returned
      exact ⟨by decide, rfl, rfl, _, by omega, rfl⟩
    · split at returned
      · cases returned
        exact ⟨by decide, rfl, rfl, _, by omega, rfl⟩
      · contradiction
  · rcases stores_tokenize invocations separates cell c reader with
      ⟨stored, number, count, token, bounded, result⟩
    rw [result] at returned
    split at returned
    · cases returned
      exact ⟨token, rfl, rfl, count, bounded, rfl⟩
    · contradiction

/-- The token that a call would read, if there is one, fits the token buffer: its text, and for a
cell every text that `_parsercell` makes of it. -/
def FitsToken (reader : SolarFileReader) : Prop :=
  let c := reader.text.getValidData.1
  let str := tokenText reader.mode c reader.text.getValidData.2.rest
  c ≠ ends →
    if reader.mode = .tab then
      ∀ invocations, ∀ cell ∈ ParserCell.parsercell reader.funcCB invocations str,
        (cStr cell).chars.length < maxTokenBufferSize
    else str.length < maxTokenBufferSize

end SolarFileReader

end SunPush
