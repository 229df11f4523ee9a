import SunPush.Library.Integer
import SunPush.Library.Memory
import SunPush.Utility.ParserCell

/-!
# The reader of configuration files

`SolarFileReader` over a loaded buffer.  Characters are read at a position that
moves on at the end of the buffer, too, where they are `TOKEN_END`, a character
like any other; every tokenizer first reads past blanks and comments.  A
character that is stored behind the end of the token buffer is no longer
described: the call ends with `overrun`.
-/

namespace SunPush

open CInteger

/-- `eTOKEN_TYPE`, as far as tokenizers return it. -/
inductive TokenType where
  | tokenError
  | tokenEnd
  | tokenNumber
  | tokenString
  | tokenExtra
  deriving DecidableEq, Repr

/-- `eSEPERATOR_MODE` -/
inductive SeparatorMode where
  | error
  | whitespace
  | quotationMarkForStr
  | onlyNewline
  | whitespaceOnlyString
  | tab
  deriving DecidableEq, Repr

/-- Why a call does not return: it stores behind the token buffer, or `_parsercell` goes on behind
so many calls of the callback. -/
inductive TokenFault where
  | overrun
  | unfinished
  deriving DecidableEq

/-- `MAX_TOKEN_BUFFER_SIZE` -/
def maxTokenBufferSize : Nat := 1024

namespace TokenChar

/-- `TOKEN_END` as a `char` -/
def ends : UInt8 := 1

def space : UInt8 := 32

def newline : UInt8 := 10

def carriageReturn : UInt8 := 13

def tab : UInt8 := 9

def slash : UInt8 := 47

def asterisk : UInt8 := 42

def quote : UInt8 := 34

def backslash : UInt8 := 92

end TokenChar

open TokenChar

/-- `_isspace` -/
def isSpace (c : UInt8) : Bool :=
  c == space || c == newline || c == carriageReturn || c == tab

/-- `_isnewline` -/
def isNewline (c : UInt8) : Bool :=
  c == newline || c == carriageReturn

def isDigit (c : UInt8) : Bool :=
  48 ≤ c && c ≤ 57

/-- The characters of the cases for a number: the digits, `.`, `-` and `+`. -/
def startsNumber (c : UInt8) : Bool :=
  isDigit c || c == 46 || c == 45 || c == 43

/-- The characters with which a number goes on: the digits, `.` and `f`. -/
def inNumber (c : UInt8) : Bool :=
  isDigit c || c == 46 || c == 102

/-- A loaded buffer and a position: `m_pszBuffer`, `m_dwBufferSize` and `m_dwBufferPos`.  The buffer
is in memory, which is not all of the address space. -/
structure TextBuffer where
  buffer : List UInt8
  bufferPos : DWord
  addressable : buffer.length + 4 ≤ 2 ^ 32

namespace TextBuffer

/-- The characters from the position on. -/
def rest (text : TextBuffer) : List UInt8 :=
  text.buffer.drop text.bufferPos.toNat

/-- `_getcurchar` -/
def getcurchar (text : TextBuffer) : UInt8 :=
  if text.bufferPos.toNat < text.buffer.length then
    text.buffer.getD text.bufferPos.toNat ends
  else ends

/-- The buffer at so many positions on. -/
def skip (text : TextBuffer) (count : Nat) : TextBuffer :=
  { text with bufferPos := text.bufferPos + BitVec.ofNat 32 count }

/-- `_getchar` -/
def getchar (text : TextBuffer) : UInt8 × TextBuffer :=
  (text.getcurchar, text.skip 1)

/-- `_rewind` -/
def rewind (text : TextBuffer) (i : DWord) : TextBuffer :=
  { text with bufferPos := text.bufferPos - i }

@[simp]
theorem skip_zero (text : TextBuffer) : text.skip 0 = text := by
  simp [skip]

theorem skip_skip (text : TextBuffer) (first second : Nat) :
    (text.skip first).skip second = text.skip (first + second) := by
  simp only [skip, BitVec.ofNat_add, BitVec.add_assoc]

theorem rewind_skip (text : TextBuffer) (count : Nat) :
    (text.skip (count + 1)).rewind 1 = text.skip count := by
  have position : text.bufferPos + BitVec.ofNat 32 (count + 1) - 1 =
      text.bufferPos + BitVec.ofNat 32 count := by
    rw [BitVec.ofNat_add, ← BitVec.add_assoc]
    exact BitVec.add_sub_cancel _ _
  simp only [skip, rewind, position]

theorem getcurchar_eq (text : TextBuffer) : text.getcurchar = text.rest.headD ends := by
  rw [getcurchar, rest]
  split
  case isTrue within =>
    rw [List.drop_eq_getElem_cons within, List.headD_cons, List.getD_eq_getElem _ _ within]
  case isFalse behind =>
    rw [List.drop_eq_nil_of_le (Nat.le_of_not_lt behind)]
    rfl

theorem getcurchar_ended {text : TextBuffer} (ended : text.rest = []) :
    text.getcurchar = ends := by
  rw [getcurchar_eq, ended]
  rfl

/-- Only in the buffer a character is not `TOKEN_END`. -/
theorem rest_ne_nil {text : TextBuffer} (inside : text.getcurchar ≠ ends) : text.rest ≠ [] := by
  intro ended
  exact inside (getcurchar_ended ended)

/-- The position does not wrap around a little behind the buffer. -/
theorem bufferPos_skip {text : TextBuffer} {count : Nat} (within : text.rest ≠ [])
    (near : count ≤ text.rest.length + 3) :
    (text.skip count).bufferPos.toNat = text.bufferPos.toNat + count := by
  have addressable := text.addressable
  rw [rest, ne_eq, List.drop_eq_nil_iff] at within
  rw [rest, List.length_drop] at near
  rw [skip, BitVec.toNat_add, BitVec.toNat_ofNat]
  omega

theorem rest_skip {text : TextBuffer} {count : Nat} (within : text.rest ≠ [])
    (near : count ≤ text.rest.length + 3) : (text.skip count).rest = text.rest.drop count := by
  rw [rest, bufferPos_skip within near, rest, List.drop_drop]
  rfl

/-- Behind the characters that are passed the others are left. -/
theorem rest_skip_append {text : TextBuffer} {chars more : List UInt8}
    (start : text.rest = chars ++ more) : (text.skip chars.length).rest = more := by
  by_cases ended : text.rest = []
  · rcases List.append_eq_nil_iff.mp (start.symm.trans ended) with ⟨rfl, rfl⟩
    rw [List.length_nil, skip_zero, ended]
  · rw [rest_skip ended, start, List.drop_left]
    rw [start, List.length_append]
    omega

theorem rest_skip_one {text : TextBuffer} {c : UInt8} {rest : List UInt8}
    (chars : text.rest = c :: rest) : (text.skip 1).rest = rest :=
  @rest_skip_append text [c] rest chars

theorem getcurchar_cons {text : TextBuffer} {c : UInt8} {rest : List UInt8}
    (chars : text.rest = c :: rest) : text.getcurchar = c := by
  rw [getcurchar_eq, chars]
  rfl

theorem length_rest_skip_lt {text : TextBuffer} {count : Nat} (within : text.rest ≠ [])
    (positive : 0 < count) (near : count ≤ text.rest.length + 3) :
    (text.skip count).rest.length < text.rest.length := by
  have nonempty := List.length_pos_of_ne_nil within
  rw [rest_skip within near, List.length_drop]
  omega

/-- Read on as long as neither the end is read nor the loop ends with a character and the one
behind it. -/
def getcharWhile (goes : UInt8 → UInt8 → Bool) (text : TextBuffer) : UInt8 × TextBuffer :=
  if text.getcurchar ≠ ends ∧ goes text.getcurchar (text.skip 1).getcurchar then
    getcharWhile goes (text.skip 1)
  else text.getchar
termination_by text.rest.length
decreasing_by exact length_rest_skip_lt (rest_ne_nil (And.left ‹_›)) (by omega) (by omega)

/-- How many characters the loop goes on over. -/
def passed (goes : UInt8 → UInt8 → Bool) : List UInt8 → Nat
  | [] => 0
  | c :: rest => if c ≠ ends ∧ goes c (rest.headD ends) then passed goes rest + 1 else 0

theorem passed_le (goes : UInt8 → UInt8 → Bool) (rest : List UInt8) :
    passed goes rest ≤ rest.length := by
  induction rest with
  | nil => exact Nat.le_refl 0
  | cons c rest ih =>
      rw [passed]
      split
      · exact Nat.succ_le_succ ih
      · exact Nat.zero_le _

theorem getcharWhile_eq (goes : UInt8 → UInt8 → Bool) (text : TextBuffer) :
    getcharWhile goes text = (text.skip (passed goes text.rest)).getchar := by
  induction chars : text.rest generalizing text with
  | nil =>
      have ended := getcurchar_ended chars
      rw [getcharWhile, if_neg (fun going => going.1 ended), passed, skip_zero]
  | cons c rest ih =>
      have behind := rest_skip_one chars
      rw [getcharWhile, getcurchar_cons chars, getcurchar_eq (text.skip 1), behind, passed]
      split
      · rw [ih _ behind, skip_skip, Nat.add_comm 1]
      · rw [skip_zero]

/-! ## Blanks and comments -/

/-- The loop over a line comment goes on. -/
def inLineComment (c _ : UInt8) : Bool :=
  c != newline

/-- The loop over a block comment goes on. -/
def inBlockComment (c next : UInt8) : Bool :=
  !(c == asterisk && next == slash)

/-- One round of `GetValidData`: a comment and the character behind it, or a character.  Behind a
block comment the closing slash and one more character are read. -/
def passComment (text : TextBuffer) : UInt8 × TextBuffer :=
  let (c, text) := text.getchar
  let nc := text.getcurchar
  if c = slash ∧ nc = slash then
    getcharWhile inLineComment text
  else if c = slash ∧ nc = asterisk then
    let (_, text) := text.getchar
    let (_, text) := getcharWhile inBlockComment text
    let (_, text) := text.getchar
    text.getchar
  else (c, text)

/-- A text begins with one of the two comments. -/
def StartsComment (chars : List UInt8) : Prop :=
  [slash, slash] <+: chars ∨ [slash, asterisk] <+: chars

instance : DecidablePred StartsComment :=
  fun _ => inferInstanceAs (Decidable (_ ∨ _))

theorem startsComment_cons (c : UInt8) (rest : List UInt8) :
    StartsComment (c :: rest) ↔
      c = slash ∧ (rest.headD ends = slash ∨ rest.headD ends = asterisk) := by
  cases rest with
  | nil => simp [StartsComment, ends, slash, asterisk]
  | cons next rest => grind [StartsComment]

theorem passComment_line {text : TextBuffer} {rest : List UInt8}
    (chars : text.rest = slash :: slash :: rest) :
    passComment text = (text.skip (1 + passed inLineComment (slash :: rest))).getchar := by
  have behind := rest_skip_one chars
  simp only [passComment, getchar, getcurchar_cons chars, getcurchar_cons behind]
  rw [if_pos ⟨trivial, trivial⟩, getcharWhile_eq, behind, skip_skip]
  rfl

theorem passComment_block {text : TextBuffer} {rest : List UInt8}
    (chars : text.rest = slash :: asterisk :: rest) :
    passComment text = (text.skip (passed inBlockComment rest + 4)).getchar := by
  have behind := rest_skip_one chars
  have inner := rest_skip_one behind
  simp only [passComment, getchar, getcurchar_cons chars, getcurchar_cons behind]
  have moved : ((((text.skip 1).skip 1).skip (passed inBlockComment rest)).skip 1).skip 1 =
      text.skip (passed inBlockComment rest + 4) := by
    simp only [skip_skip]
    congr 1
    omega
  rw [if_neg (by decide), if_pos ⟨trivial, trivial⟩, getcharWhile_eq, inner]
  simp only [getchar, moved]

theorem passComment_plain {text : TextBuffer} (plain : ¬StartsComment text.rest) :
    passComment text = text.getchar := by
  cases chars : text.rest with
  | nil => simp [passComment, getchar, getcurchar_ended chars, ends, slash]
  | cons c rest =>
      have next := getcurchar_eq (text.skip 1)
      rw [rest_skip_one chars] at next
      simp only [passComment, getchar, getcurchar_cons chars, next]
      rw [chars, startsComment_cons] at plain
      rw [if_neg (fun line => plain ⟨line.1, .inl line.2⟩),
        if_neg (fun block => plain ⟨block.1, .inr block.2⟩)]

/-- A round ends with a `_getchar`, not far behind the buffer. -/
theorem passComment_eq (text : TextBuffer) :
    ∃ count, count ≤ text.rest.length + 2 ∧ passComment text = (text.skip count).getchar := by
  by_cases comment : StartsComment text.rest
  · rcases comment with ⟨rest, chars⟩ | ⟨rest, chars⟩
    · have start : text.rest = slash :: slash :: rest := chars.symm
      have bounded := passed_le inLineComment (slash :: rest)
      refine ⟨_, ?_, passComment_line start⟩
      rw [start]
      simp only [List.length_cons] at bounded ⊢
      omega
    · have start : text.rest = slash :: asterisk :: rest := chars.symm
      have bounded := passed_le inBlockComment rest
      refine ⟨_, ?_, passComment_block start⟩
      rw [start]
      simp only [List.length_cons]
      omega
  · refine ⟨0, Nat.zero_le _, ?_⟩
    rw [passComment_plain comment, skip_zero]

/-- A round that does not read the end moves on in the buffer. -/
theorem passComment_inside {text : TextBuffer} (inside : (passComment text).1 ≠ ends) :
    ∃ count, count < text.rest.length ∧ passComment text = (text.skip count).getchar := by
  rcases passComment_eq text with ⟨count, near, round⟩
  refine ⟨count, ?_, round⟩
  rw [round, getchar] at inside
  have within : text.rest ≠ [] := by
    intro ended
    have plain : ¬StartsComment text.rest := by
      rw [ended]
      decide
    rw [← getchar, ← round, passComment_plain plain] at inside
    exact inside (getcurchar_ended ended)
  have more := rest_ne_nil inside
  rw [rest_skip within (by omega), ne_eq, List.drop_eq_nil_iff] at more
  omega

theorem length_rest_passComment_lt {text : TextBuffer} (inside : (passComment text).1 ≠ ends) :
    (passComment text).2.rest.length < text.rest.length := by
  rcases passComment_inside inside with ⟨count, within, round⟩
  rw [round, getchar, skip_skip]
  apply length_rest_skip_lt
  · apply List.ne_nil_of_length_pos
    omega
  · omega
  · omega

/-- `GetValidData` -/
def getValidData (text : TextBuffer) : UInt8 × TextBuffer :=
  if (passComment text).1 = ends then passComment text
  else if isSpace (passComment text).1 then getValidData (passComment text).2
  else passComment text
termination_by text.rest.length
decreasing_by exact length_rest_passComment_lt ‹_›

/-- What `GetValidData` returns is read last, and in the buffer unless it is `TOKEN_END`. -/
theorem getValidData_eq (text : TextBuffer) :
    ∃ count, getValidData text = (text.skip count).getchar ∧
      ((getValidData text).1 ≠ ends → count < text.rest.length) := by
  induction text using getValidData.induct with
  | case1 text ended =>
      rcases passComment_eq text with ⟨count, -, round⟩
      rw [getValidData, if_pos ended]
      exact ⟨count, round, fun inside => absurd ended inside⟩
  | case2 text inside blank ih =>
      rcases passComment_inside inside with ⟨first, first_lt, round⟩
      rcases ih with ⟨second, read, second_lt⟩
      have within : text.rest ≠ [] := List.ne_nil_of_length_pos (by omega)
      have behind : (passComment text).2 = text.skip (first + 1) := by
        rw [round, getchar, skip_skip]
      rw [getValidData, if_neg inside, if_pos blank]
      rw [behind] at read second_lt ⊢
      refine ⟨first + 1 + second, ?_, ?_⟩
      · rw [read, skip_skip]
      · intro valid
        have bounded := second_lt valid
        rw [rest_skip within (by omega), List.length_drop] at bounded
        omega
  | case3 text inside valid =>
      rcases passComment_inside inside with ⟨count, within, round⟩
      rw [getValidData, if_neg inside, if_neg valid]
      exact ⟨count, round, fun _ => within⟩

/-- A character that is neither blank nor begins a comment is returned. -/
theorem getValidData_plain {text : TextBuffer} (plain : ¬StartsComment text.rest)
    (valid : isSpace text.getcurchar = false) : getValidData text = text.getchar := by
  rw [getValidData, passComment_plain plain]
  split
  · rfl
  · rw [if_neg (by simp [getchar, valid])]

/-! ## Tokens -/

/-- `*pbp = c` -/
def store (tokenString : Memory) (pbp : Nat) (c : UInt8) : Except TokenFault Memory :=
  if pbp < maxTokenBufferSize then .ok (tokenString.write pbp [c]) else .error .overrun

/-- The loop that copies characters as long as they belong to the token. -/
def copyWhile (accept : UInt8 → Bool) (tokenString : Memory) (pbp : Nat) (text : TextBuffer) :
    Except TokenFault (Memory × Nat × TextBuffer) :=
  if text.getcurchar ≠ ends ∧ accept text.getcurchar then do
    let tokenString ← store tokenString pbp text.getcurchar
    copyWhile accept tokenString (pbp + 1) (text.skip 1)
  else .ok (tokenString, pbp, text.skip 1)
termination_by text.rest.length
decreasing_by exact length_rest_skip_lt (rest_ne_nil (And.left ‹_›)) (by omega) (by omega)

/-- A token that begins with a character, and its terminator.  The character behind the token is
read again. -/
def copyToken (accept : UInt8 → Bool) (tokenString : Memory) (c : UInt8) (text : TextBuffer) :
    Except TokenFault (Memory × Nat × TextBuffer) := do
  let tokenString ← store tokenString 0 c
  let (tokenString, pbp, text) ← copyWhile accept tokenString 1 text
  let tokenString ← store tokenString pbp 0
  return (tokenString, pbp, text.rewind 1)

/-- A character between quotation marks, or the one behind a backslash. -/
def getescaped (text : TextBuffer) : UInt8 × TextBuffer :=
  if text.getcurchar = backslash then (text.skip 1).getchar else text.getchar

theorem length_rest_getescaped_lt {text : TextBuffer} (within : text.rest ≠ []) :
    text.getescaped.2.rest.length < text.rest.length := by
  rw [getescaped]
  split
  · rw [getchar, skip_skip]
    exact length_rest_skip_lt within (by omega) (by omega)
  · exact length_rest_skip_lt within (by omega) (by omega)

/-- The loop that copies characters up to the quotation mark. -/
def copyQuoted (tokenString : Memory) (pbp : Nat) (text : TextBuffer) :
    Except TokenFault (Memory × Nat × TextBuffer) :=
  if text.getcurchar ≠ ends ∧ text.getcurchar ≠ quote then do
    let tokenString ← store tokenString pbp text.getescaped.1
    copyQuoted tokenString (pbp + 1) text.getescaped.2
  else .ok (tokenString, pbp, text.skip 1)
termination_by text.rest.length
decreasing_by exact length_rest_getescaped_lt (rest_ne_nil (And.left ‹_›))

/-- One character for a cell and the flag for a quotation mark that was read last, which the
character replaces. -/
def cellStep (cell : List UInt8 × Bool) (c : UInt8) : List UInt8 × Bool :=
  if c ≠ quote then
    if cell.2 then (cell.1.dropLast ++ [c], false) else (cell.1 ++ [c], cell.2)
  else (cell.1 ++ [c], true)

/-- The loop that reads a cell. -/
def cellLoop (cell : List UInt8 × Bool) (text : TextBuffer) :
    (List UInt8 × Bool) × TextBuffer :=
  if text.getcurchar ≠ ends ∧ !isNewline text.getcurchar ∧ text.getcurchar ≠ tab then
    cellLoop (cellStep cell text.getcurchar) (text.skip 1)
  else (cell, text.skip 1)
termination_by text.rest.length
decreasing_by exact length_rest_skip_lt (rest_ne_nil (And.left ‹_›)) (by omega) (by omega)

/-- A quotation mark that is read last is dropped. -/
def closeCell (cell : List UInt8 × Bool) : List UInt8 :=
  if cell.2 then cell.1.dropLast else cell.1

end TextBuffer

open TextBuffer

/-- The texts of a cell that `_getNextTokenType_tab` takes for an empty one: `""`, `"0"`, `"NULL"`
and `" "`. -/
def blankCells : List (List UInt8) :=
  [[], [48], [78, 85, 76, 76], [32]]

/-- `strncpy`, which pads with zeros. -/
def strncpy (destination : Memory) (source : NulString) (count : Nat) : Memory :=
  destination.write 0 ((source.chars ++ List.replicate count 0).take count)

/-- `tokenNumber` is the text whose `atof` is `m_dTokenNumber`, the empty one for `0.0`. -/
structure SolarFileReader where
  tokenNumber : List UInt8
  tokenString : Memory
  text : TextBuffer
  funcCB : Option LanFindCallback
  mode : SeparatorMode

namespace SolarFileReader

/-- `_clear` -/
def clear (reader : SolarFileReader) : SolarFileReader :=
  { reader with tokenNumber := [], tokenString := reader.tokenString.write 0 [0] }

/-- `GETVALIDDATA`, and what comes behind it. -/
def withValidData (reader : SolarFileReader)
    (tokenize : UInt8 → SolarFileReader → Except TokenFault (TokenType × SolarFileReader)) :
    Except TokenFault (TokenType × SolarFileReader) :=
  let (c, text) := reader.text.getValidData
  if c = ends then .ok (.tokenEnd, { reader with text })
  else tokenize c { reader with text }

/-- The case of a number. -/
def readNumber (c : UInt8) (reader : SolarFileReader) :
    Except TokenFault (TokenType × SolarFileReader) := do
  let (tokenString, pbp, text) ← copyToken inNumber reader.tokenString c reader.text
  return (.tokenNumber,
    { reader with tokenNumber := tokenString.read 0 pbp, tokenString, text })

/-- The case of a string without quotation marks. -/
def readString (accept : UInt8 → Bool) (c : UInt8) (reader : SolarFileReader) :
    Except TokenFault (TokenType × SolarFileReader) := do
  let (tokenString, _, text) ← copyToken accept reader.tokenString c reader.text
  return (.tokenString, { reader with tokenString, text })

/-- The case of a quotation mark. -/
def readQuoted (reader : SolarFileReader) :
    Except TokenFault (TokenType × SolarFileReader) := do
  let (tokenString, pbp, text) ← copyQuoted reader.tokenString 0 reader.text
  let tokenString ← store tokenString pbp 0
  return (.tokenString, { reader with tokenString, text })

/-- The case of another character. -/
def readExtra (c : UInt8) (reader : SolarFileReader) :
    Except TokenFault (TokenType × SolarFileReader) := do
  let tokenString ← store reader.tokenString 0 c
  let tokenString ← store tokenString 1 0
  return (.tokenExtra, { reader with tokenString })

/-- A cell, whose `_parsercell` may take so many calls of the callback. -/
def readCell (invocations : Nat) (c : UInt8) (reader : SolarFileReader) :
    Except TokenFault (TokenType × SolarFileReader) :=
  let (cell, text) := cellLoop ([c], c == quote) reader.text
  let str := closeCell cell
  let reader := { reader with tokenNumber := (cStr str).chars, text := text.rewind 1 }
  if str ∈ blankCells then
    .ok (.tokenString, { reader with tokenString := reader.tokenString.write 0 [0] })
  else match ParserCell.parsercell reader.funcCB invocations str with
    | some str =>
        .ok (.tokenString, { reader with
          tokenString := strncpy reader.tokenString (cStr str) 1024 })
    | none => .error .unfinished

/-- `_getNextTokenType_whitespace` -/
def getNextTokenTypeWhitespace (reader : SolarFileReader) :
    Except TokenFault (TokenType × SolarFileReader) :=
  reader.withValidData fun c =>
    if startsNumber c then readNumber c else readString (fun c => !isSpace c) c

/-- `_getNextTokenType_quotationForStr` -/
def getNextTokenTypeQuotationForStr (reader : SolarFileReader) :
    Except TokenFault (TokenType × SolarFileReader) :=
  reader.withValidData fun c =>
    if startsNumber c then readNumber c
    else if c = quote then readQuoted
    else readExtra c

/-- `_getNextTokenType_newline` -/
def getNextTokenTypeNewline (reader : SolarFileReader) :
    Except TokenFault (TokenType × SolarFileReader) :=
  reader.withValidData fun c => readString (fun c => !isNewline c) c

/-- `_getNextTokenType_whitespace_onlystring` -/
def getNextTokenTypeWhitespaceOnlystring (reader : SolarFileReader) :
    Except TokenFault (TokenType × SolarFileReader) :=
  reader.withValidData fun c => readString (fun c => !isSpace c) c

/-- `_getNextTokenType_tab` -/
def getNextTokenTypeTab (invocations : Nat) (reader : SolarFileReader) :
    Except TokenFault (TokenType × SolarFileReader) :=
  reader.withValidData fun c => readCell invocations c

/-- `GetNextTokenType` -/
def getNextTokenType (invocations : Nat) (reader : SolarFileReader) :
    Except TokenFault (TokenType × SolarFileReader) :=
  match reader.mode with
  | .whitespace => reader.clear.getNextTokenTypeWhitespace
  | .quotationMarkForStr => reader.clear.getNextTokenTypeQuotationForStr
  | .onlyNewline => reader.clear.getNextTokenTypeNewline
  | .whitespaceOnlyString => reader.clear.getNextTokenTypeWhitespaceOnlystring
  | .tab => reader.clear.getNextTokenTypeTab invocations
  | .error => .ok (.tokenError, reader.clear)

/-- `IsEOF` -/
def isEOF (reader : SolarFileReader) : Bool × SolarFileReader :=
  let curPos := reader.text.bufferPos
  let (c, text) := reader.text.getValidData
  (c == ends, { reader with text := { text with bufferPos := curPos } })

end SolarFileReader

end SunPush
