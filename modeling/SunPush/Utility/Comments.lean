import Mathlib.Data.List.Chain
import SunPush.Utility.TokenText

/-!
# Comments as white space

A document is a list of tokens with a separator before, between and after them: a
blank and then blanks and comments in any order.  Reading past a separator stops at
the token behind it unless a block comment touches another comment: what is read
behind the closing slash is taken for the first character of a token, without a look
at the one behind it.  Then the second comment is returned as a token.
-/

namespace SunPush

open TokenChar TextBuffer

/-! ## Documents -/

/-- A character of white space. -/
abbrev Blank : Type := { c : UInt8 // isSpace c = true }

/-- The text of a line comment. -/
structure LineText where
  chars : List UInt8
  inLine : ∀ c ∈ chars, c ≠ ends ∧ c ≠ newline

/-- The text of a block comment. -/
structure BlockText where
  chars : List UInt8
  unended : ends ∉ chars
  unclosed : ¬[asterisk, slash] <:+: chars

inductive SeparatorPart where
  | blank (c : Blank)
  | line (text : LineText)
  | block (text : BlockText)

namespace SeparatorPart

def chars (part : SeparatorPart) : List UInt8 :=
  match part with
  | .blank c => [c.val]
  | .line text => [slash, slash] ++ text.chars ++ [newline]
  | .block text => [slash, asterisk] ++ text.chars ++ [asterisk, slash]

def IsBlank (part : SeparatorPart) : Prop :=
  match part with
  | .blank _ => True
  | _ => False

def IsBlock (part : SeparatorPart) : Prop :=
  match part with
  | .block _ => True
  | _ => False

/-- A block comment does not touch a comment behind it. -/
def Apart (part next : SeparatorPart) : Prop :=
  part.IsBlock → next.IsBlank

end SeparatorPart

structure Separator where
  first : Blank
  parts : List SeparatorPart

/-- The characters of parts in order. -/
def partsChars (parts : List SeparatorPart) : List UInt8 :=
  parts.flatMap SeparatorPart.chars

namespace Separator

def chars (separator : Separator) : List UInt8 :=
  separator.first.val :: partsChars separator.parts

/-- No block comment touches the comment behind it. -/
def CommentsApart (separator : Separator) : Prop :=
  separator.parts.IsChain SeparatorPart.Apart

end Separator

structure Token where
  chars : List UInt8
  nonempty : chars ≠ []
  unbroken : ∀ c ∈ chars, c ≠ ends ∧ isSpace c = false
  plain : ¬StartsComment chars
  short : chars.length < maxTokenBufferSize

/-- Tokens, each with the separator behind it. -/
def itemsChars (items : List (Token × Separator)) : List UInt8 :=
  items.flatMap fun item => item.1.chars ++ item.2.chars

structure Document where
  lead : Separator
  items : List (Token × Separator)

namespace Document

def chars (document : Document) : List UInt8 :=
  document.lead.chars ++ itemsChars document.items

def tokens (document : Document) : List (List UInt8) :=
  document.items.map fun item => item.1.chars

def CommentsApart (document : Document) : Prop :=
  document.lead.CommentsApart ∧ ∀ item ∈ document.items, item.2.CommentsApart

end Document

/-! ## Reading past a separator -/

namespace TextBuffer

theorem getValidData_congr {text other : TextBuffer}
    (same : passComment text = passComment other) : getValidData text = getValidData other := by
  rw [getValidData.eq_def text, getValidData.eq_def other, same]

/-- Behind a round that reads a blank the next one begins. -/
theorem getValidData_again {text : TextBuffer} (blank : isSpace (passComment text).1 = true) :
    getValidData text = getValidData (passComment text).2 := by
  have inside : (passComment text).1 ≠ ends := by
    intro ended
    rw [ended] at blank
    contradiction
  rw [getValidData, if_neg inside, if_pos blank]

theorem not_startsComment_of_blank {c : UInt8} (blank : isSpace c = true) (rest : List UInt8) :
    ¬StartsComment (c :: rest) := by
  rw [startsComment_cons]
  rintro ⟨rfl, -⟩
  contradiction

/-- The characters of a text that the loop goes on over, whatever is behind them. -/
theorem passed_append {goes : UInt8 → UInt8 → Bool} {chars : List UInt8} (more : List UInt8)
    (goes_on : ∀ left c right, chars = left ++ c :: right →
      c ≠ ends ∧ goes c ((right ++ more).headD ends) = true) :
    passed goes (chars ++ more) = chars.length + passed goes more := by
  induction chars with
  | nil => rw [List.nil_append, List.length_nil, Nat.zero_add]
  | cons c chars ih =>
      have later := ih fun left other right text =>
        goes_on (c :: left) other right (congrArg (List.cons c) text)
      rw [List.cons_append, passed, if_pos (goes_on [] c chars rfl), later, List.length_cons]
      omega

theorem passed_stop {goes : UInt8 → UInt8 → Bool} {c : UInt8} {rest : List UInt8}
    (stops : goes c (rest.headD ends) = false) : passed goes (c :: rest) = 0 := by
  rw [passed, if_neg]
  rintro ⟨-, goes_on⟩
  rw [stops] at goes_on
  contradiction

theorem getValidData_blank {text : TextBuffer} (c : Blank) {more : List UInt8}
    (chars : text.rest = c.val :: more) : getValidData text = getValidData (text.skip 1) := by
  have round : passComment text = text.getchar := by
    apply passComment_plain
    rw [chars]
    exact not_startsComment_of_blank c.property more
  rw [getValidData_again, round]
  · rfl
  · rw [round, getchar, getcurchar_cons chars]
    exact c.property

theorem passed_lineText (comment : LineText) (more : List UInt8) :
    passed inLineComment (slash :: comment.chars ++ newline :: more) =
      comment.chars.length + 1 := by
  have goes_on : ∀ left c right, slash :: comment.chars = left ++ c :: right →
      c ≠ ends ∧ inLineComment c ((right ++ newline :: more).headD ends) = true := by
    intro left c right text
    have c_mem : c ∈ slash :: comment.chars := by simp [text]
    rcases List.mem_cons.mp c_mem with rfl | mem
    · exact ⟨by decide, rfl⟩
    · rcases comment.inLine c mem with ⟨inside, within⟩
      exact ⟨inside, bne_iff_ne.mpr within⟩
  rw [passed_append _ goes_on, passed_stop rfl, List.length_cons, Nat.add_zero]

/-- An asterisk in the text is not followed by a slash, the last one neither. -/
theorem passed_blockText (comment : BlockText) (more : List UInt8) :
    passed inBlockComment (comment.chars ++ asterisk :: slash :: more) = comment.chars.length := by
  have goes_on : ∀ left c right, comment.chars = left ++ c :: right →
      c ≠ ends ∧
        inBlockComment c ((right ++ asterisk :: slash :: more).headD ends) = true := by
    intro left c right text
    refine ⟨?_, ?_⟩
    · rintro rfl
      apply comment.unended
      simp [text]
    · rw [inBlockComment, Bool.not_eq_true', Bool.and_eq_false_iff]
      by_contra closes
      rw [not_or, Bool.not_eq_false, Bool.not_eq_false, beq_iff_eq, beq_iff_eq] at closes
      rcases closes with ⟨rfl, next⟩
      cases right with
      | nil =>
          have same : asterisk = slash := next
          contradiction
      | cons other right =>
          obtain rfl : other = slash := next
          exact comment.unclosed ⟨left, right, by simp [text]⟩
  rw [passed_append _ goes_on, passed_stop rfl, Nat.add_zero]

theorem getValidData_line {text : TextBuffer} (comment : LineText) {more : List UInt8}
    (chars : text.rest = (SeparatorPart.line comment).chars ++ more) :
    getValidData text = getValidData (text.skip (SeparatorPart.line comment).chars.length) := by
  have start : text.rest = slash :: slash :: (comment.chars ++ newline :: more) := by
    simpa [SeparatorPart.chars] using chars
  have round : passComment text = (text.skip (comment.chars.length + 2)).getchar := by
    have loop := passed_lineText comment more
    rw [List.cons_append] at loop
    rw [passComment_line start, loop]
    congr 2
    omega
  have last : (text.skip (comment.chars.length + 2)).rest = newline :: more := by
    rw [rest_skip (by simp [start]) (by simp [start]; omega), start]
    simp
  have width : (SeparatorPart.line comment).chars.length = comment.chars.length + 2 + 1 := by
    simp [SeparatorPart.chars]
  have blank : isSpace (passComment text).1 = true := by
    rw [round, getchar, getcurchar_cons last]
    rfl
  rw [getValidData_again blank, round, getchar, skip_skip, width]

/-- A block comment is read with the character behind it. -/
theorem passComment_block_chars {text : TextBuffer} (comment : BlockText) {more : List UInt8}
    (chars : text.rest = (SeparatorPart.block comment).chars ++ more) :
    passComment text = (text.skip (SeparatorPart.block comment).chars.length).getchar := by
  have start : text.rest = slash :: asterisk :: (comment.chars ++ asterisk :: slash :: more) := by
    simpa [SeparatorPart.chars] using chars
  have width : (SeparatorPart.block comment).chars.length = comment.chars.length + 4 := by
    simp [SeparatorPart.chars]
  rw [passComment_block start, passed_blockText, width]

/-- A block comment with no comment right behind it is passed. -/
theorem getValidData_block {text : TextBuffer} (comment : BlockText) {more : List UInt8}
    (chars : text.rest = (SeparatorPart.block comment).chars ++ more)
    (plain : ¬StartsComment more) :
    getValidData text = getValidData (text.skip (SeparatorPart.block comment).chars.length) := by
  apply getValidData_congr
  rw [passComment_block_chars comment chars, passComment_plain]
  rw [rest_skip_append chars]
  exact plain

/-- What touches a block comment is not taken for a comment. -/
theorem getValidData_touching {text : TextBuffer} (comment : BlockText) {more : List UInt8}
    (chars : text.rest = (SeparatorPart.block comment).chars ++ more)
    (comments : StartsComment more) :
    getValidData text = (text.skip (SeparatorPart.block comment).chars.length).getchar := by
  have behind := rest_skip_append chars
  have first : (text.skip (SeparatorPart.block comment).chars.length).getcurchar = slash := by
    rw [getcurchar_eq, behind]
    rcases comments with ⟨rest, rfl⟩ | ⟨rest, rfl⟩
    · rfl
    · rfl
  have inside : slash ≠ ends := by decide
  have unspaced : ¬isSpace slash = true := by decide
  rw [getValidData, passComment_block_chars comment chars, getchar, first, if_neg inside,
    if_neg unspaced]

theorem getValidData_part {text : TextBuffer} {part : SeparatorPart} {more : List UInt8}
    (chars : text.rest = part.chars ++ more) (plain : part.IsBlock → ¬StartsComment more) :
    getValidData text = getValidData (text.skip part.chars.length) := by
  cases part with
  | blank c => exact getValidData_blank c chars
  | line comment => exact getValidData_line comment chars
  | block comment => exact getValidData_block comment chars (plain trivial)

theorem startsComment_parts_iff {parts : List SeparatorPart} {more : List UInt8}
    (plain : ¬StartsComment more) :
    StartsComment (partsChars parts ++ more) ↔ ¬∀ next ∈ parts.head?, next.IsBlank := by
  cases parts with
  | nil => simpa [partsChars] using plain
  | cons part parts =>
      cases part with
      | blank c =>
          simp [partsChars, SeparatorPart.chars, SeparatorPart.IsBlank,
            not_startsComment_of_blank c.property]
      | _ => simp [partsChars, SeparatorPart.chars, SeparatorPart.IsBlank, StartsComment]

theorem apart_cons_iff {part : SeparatorPart} {parts : List SeparatorPart} {more : List UInt8}
    (plain : ¬StartsComment more) :
    (part :: parts).IsChain SeparatorPart.Apart ↔
      (part.IsBlock → ¬StartsComment (partsChars parts ++ more)) ∧
        parts.IsChain SeparatorPart.Apart := by
  rw [List.isChain_cons, startsComment_parts_iff plain, not_not]
  constructor
  · rintro ⟨apart, chain⟩
    exact ⟨fun block next next_mem => apart next next_mem block, chain⟩
  · rintro ⟨apart, chain⟩
    exact ⟨fun next next_mem block => apart block next next_mem, chain⟩

theorem rest_eq_part_append {text : TextBuffer} {part : SeparatorPart} {parts : List SeparatorPart}
    {more : List UInt8} (chars : text.rest = partsChars (part :: parts) ++ more) :
    text.rest = part.chars ++ (partsChars parts ++ more) := by
  rw [chars, ← List.append_assoc]
  rfl

/-- Parts that are apart are passed. -/
theorem getValidData_parts {text : TextBuffer} {parts : List SeparatorPart} {more : List UInt8}
    (apart : parts.IsChain SeparatorPart.Apart) (plain : ¬StartsComment more)
    (chars : text.rest = partsChars parts ++ more) :
    getValidData text = getValidData (text.skip (partsChars parts).length) := by
  induction parts generalizing text with
  | nil => rw [partsChars, List.flatMap_nil, List.length_nil, skip_zero]
  | cons part parts ih =>
      rw [apart_cons_iff plain] at apart
      have start := rest_eq_part_append chars
      rw [getValidData_part start apart.1, ih apart.2 (rest_skip_append start), skip_skip,
        ← List.length_append]
      rfl

/-- Where a block comment touches a comment, this comment is taken for a token. -/
theorem getValidData_not_apart {text : TextBuffer} {parts : List SeparatorPart}
    {more : List UInt8} (touching : ¬parts.IsChain SeparatorPart.Apart)
    (plain : ¬StartsComment more) (chars : text.rest = partsChars parts ++ more) :
    ∃ count, getValidData text = (text.skip count).getchar ∧
      StartsComment (text.skip count).rest := by
  induction parts generalizing text with
  | nil => exact absurd List.IsChain.nil touching
  | cons part parts ih =>
      rw [apart_cons_iff plain, not_and_or] at touching
      have start := rest_eq_part_append chars
      have behind := rest_skip_append start
      by_cases passes : part.IsBlock → ¬StartsComment (partsChars parts ++ more)
      · rcases touching with touches | touching
        · exact absurd passes touches
        · rcases ih touching behind with ⟨count, read, starts⟩
          rw [skip_skip] at read starts
          exact ⟨_, (getValidData_part start passes).trans read, starts⟩
      · rw [Classical.not_imp, not_not] at passes
        rcases passes with ⟨block, starts⟩
        cases part with
        | blank c => contradiction
        | line comment => contradiction
        | block comment =>
            refine ⟨_, getValidData_touching comment start starts, ?_⟩
            rw [behind]
            exact starts

end TextBuffer

namespace Separator

theorem getValidData_eq {separator : Separator} (apart : separator.CommentsApart)
    {text : TextBuffer} {more : List UInt8} (plain : ¬StartsComment more)
    (chars : text.rest = separator.chars ++ more) :
    getValidData text = getValidData (text.skip separator.chars.length) := by
  have width : separator.chars.length = 1 + (partsChars separator.parts).length :=
    Nat.add_comm _ 1
  rw [getValidData_blank separator.first chars,
    getValidData_parts apart plain (rest_skip_one chars), skip_skip, width]

theorem getValidData_touching {separator : Separator} (touching : ¬separator.CommentsApart)
    {text : TextBuffer} {more : List UInt8} (plain : ¬StartsComment more)
    (chars : text.rest = separator.chars ++ more) :
    ∃ count, getValidData text = (text.skip count).getchar ∧
      StartsComment (text.skip count).rest := by
  rcases getValidData_not_apart touching plain (rest_skip_one chars) with ⟨count, read, starts⟩
  rw [skip_skip] at read starts
  exact ⟨_, (getValidData_blank separator.first chars).trans read, starts⟩

end Separator

/-- In front of another character a token does not begin a comment, either. -/
theorem Token.plain_append (token : Token) {next : UInt8}
    (foreign : next ≠ slash ∧ next ≠ asterisk) (more : List UInt8) :
    ¬StartsComment (token.chars ++ next :: more) := by
  have plain := token.plain
  have nonempty := token.nonempty
  cases chars : token.chars with
  | nil => contradiction
  | cons c tail =>
      rw [chars, startsComment_cons] at plain
      rw [List.cons_append, startsComment_cons]
      cases tail with
      | nil =>
          rintro ⟨-, touches⟩
          exact touches.elim foreign.1 foreign.2
      | cons next tail => exact plain

theorem Token.plain_separator (token : Token) (separator : Separator) (more : List UInt8) :
    ¬StartsComment (token.chars ++ (separator.chars ++ more)) := by
  have blank := separator.first.property
  apply token.plain_append
  refine ⟨?_, ?_⟩
  · intro next
    rw [next] at blank
    contradiction
  · intro next
    rw [next] at blank
    contradiction

/-- Two bytes decide whether a block begins a comment. -/
theorem startsComment_read {memory : Memory} {count other : Nat}
    (starts : StartsComment (memory.read 0 count)) (two : 2 ≤ other) :
    StartsComment (memory.read 0 other) := by
  rcases Nat.exists_eq_add_of_le two with ⟨more, rfl⟩
  rw [Memory.read_add]
  rcases starts with line | block
  · have first : [slash, slash] = memory.read 0 2 := Memory.eq_read_of_prefix line
    rw [← first]
    exact .inl (List.prefix_append _ _)
  · have first : [slash, asterisk] = memory.read 0 2 := Memory.eq_read_of_prefix block
    rw [← first]
    exact .inr (List.prefix_append _ _)

/-- The text up to a blank begins a comment when the whole does. -/
theorem startsComment_tokenChars {rest : List UInt8} (comment : StartsComment (slash :: rest))
    (more : List UInt8) :
    StartsComment (slash :: (tokenChars (fun c => !isSpace c) rest ++ more)) := by
  rw [startsComment_cons] at comment ⊢
  refine ⟨rfl, ?_⟩
  cases rest with
  | nil => exact absurd comment.2 (by decide)
  | cons next rest =>
      have second : next = slash ∨ next = asterisk := comment.2
      have belongs : next ≠ ends ∧ (!isSpace next) = true := by
        rcases second with rfl | rfl
        · decide
        · decide
      rw [@tokenChars_cons (fun c => !isSpace c) next belongs]
      exact second

namespace SolarFileReader

/-- Repeated calls return the tokens in order, each as a string in the token buffer, and then
`TOKEN_END`. -/
def Yields (invocations : Nat) : List (List UInt8) → SolarFileReader → Prop
  | [], reader => ∃ after, reader.getNextTokenType invocations = .ok (.tokenEnd, after)
  | token :: tokens, reader => ∃ after,
      reader.getNextTokenType invocations = .ok (.tokenString, after) ∧
        after.tokenString.read 0 (token.length + 1) = token ++ [0] ∧
        Yields invocations tokens after

theorem getNextTokenType_onlyString {reader : SolarFileReader}
    (onlyString : reader.mode = .whitespaceOnlyString) (invocations : Nat) :
    reader.getNextTokenType invocations =
      if reader.text.getValidData.1 = ends then
        .ok (.tokenEnd, { reader.clear with text := reader.text.getValidData.2 })
      else readString (fun c => !isSpace c) reader.text.getValidData.1
        { reader.clear with text := reader.text.getValidData.2 } := by
  have separates : reader.mode ≠ .error := by simp [onlyString]
  rw [getNextTokenType_eq separates, onlyString]
  rfl

/-- A token is returned as it is, up to the separator behind it. -/
theorem returns_token {reader : SolarFileReader}
    (onlyString : reader.mode = .whitespaceOnlyString) {text : TextBuffer}
    (read : reader.text.getValidData = text.getValidData) {token : Token}
    {separator : Separator} {more : List UInt8}
    (chars : text.rest = token.chars ++ (separator.chars ++ more)) (invocations : Nat) :
    ∃ after, reader.getNextTokenType invocations = .ok (.tokenString, after) ∧
      after.tokenString.read 0 (token.chars.length + 1) = token.chars ++ [0] ∧
      after.mode = .whitespaceOnlyString ∧ after.text.rest = separator.chars ++ more := by
  have plain := token.plain_separator separator more
  rw [← chars] at plain
  have nonempty := token.nonempty
  have short := token.short
  have unbroken := token.unbroken
  cases characters : token.chars with
  | nil => contradiction
  | cons c tail =>
      rw [characters] at chars short unbroken
      rcases unbroken c List.mem_cons_self with ⟨inside, valid⟩
      have first : reader.text.getValidData = (c, text.skip 1) := by
        have current := getcurchar_cons chars
        rw [read, getValidData_plain plain (by rw [current, valid]), getchar, current]
      have behind := rest_skip_one chars
      have belongs : ∀ c ∈ tail, c ≠ ends ∧ (!isSpace c) = true := by
        intro other other_mem
        rcases unbroken other (List.mem_cons_of_mem _ other_mem) with ⟨inside, valid⟩
        exact ⟨inside, congrArg not valid⟩
      have stops : (!isSpace separator.first.val) = false :=
        congrArg not separator.first.property
      have whole : tokenChars (fun c => !isSpace c) (text.skip 1).rest = tail := by
        rw [behind]
        exact tokenChars_append belongs stops _
      have call := getNextTokenType_onlyString onlyString invocations
      rw [first, if_neg inside, readString_eq, whole, if_pos short] at call
      refine ⟨_, call, ?_, onlyString, ?_⟩
      · have stored := Memory.read_write_self reader.clear.tokenString 0 (c :: tail ++ [0])
        rw [List.length_append] at stored
        exact stored
      · exact rest_skip_append behind

/-- A token that begins like a comment is no token of a document. -/
theorem not_yields_of_startsComment {reader : SolarFileReader}
    (onlyString : reader.mode = .whitespaceOnlyString) {text : TextBuffer}
    (read : reader.text.getValidData = text.getchar) (comment : StartsComment text.rest)
    (invocations : Nat) (items : List (Token × Separator)) :
    ¬Yields invocations (items.map fun item => item.1.chars) reader := by
  have call := getNextTokenType_onlyString onlyString invocations
  have inside : slash ≠ ends := by decide
  obtain ⟨rest, chars⟩ : ∃ rest, text.rest = slash :: rest := by
    rcases comment with ⟨rest, chars⟩ | ⟨rest, chars⟩
    · exact ⟨_, chars.symm⟩
    · exact ⟨_, chars.symm⟩
  rw [chars] at comment
  rw [read, getchar, getcurchar_cons chars, if_neg inside, readString_eq,
    rest_skip_one chars] at call
  cases items with
  | nil =>
      rintro ⟨after, returned⟩
      rw [call] at returned
      split at returned
      · cases returned
      · cases returned
  | cons item items =>
      rintro ⟨after, returned, stored, -⟩
      rw [call] at returned
      split at returned
      · cases returned
        have written := Memory.read_write_self reader.clear.tokenString 0
          (slash :: tokenChars (fun c => !isSpace c) rest ++ [0])
        have starts := startsComment_tokenChars comment [0]
        rw [← List.cons_append, ← written] at starts
        have nonempty := List.length_pos_of_ne_nil item.1.nonempty
        have again := startsComment_read starts (Nat.succ_le_succ nonempty)
        rw [stored] at again
        exact item.1.plain_append (by decide) [] again
      · cases returned

theorem not_startsComment_items (items : List (Token × Separator)) :
    ¬StartsComment (itemsChars items) := by
  cases items with
  | nil => decide
  | cons item items =>
      have plain := item.1.plain_separator item.2 (itemsChars items)
      rw [← List.append_assoc] at plain
      exact plain

theorem not_yields_of_touching {reader : SolarFileReader}
    (onlyString : reader.mode = .whitespaceOnlyString) {separator : Separator}
    (touching : ¬separator.CommentsApart) {items : List (Token × Separator)}
    (chars : reader.text.rest = separator.chars ++ itemsChars items) (invocations : Nat) :
    ¬Yields invocations (items.map fun item => item.1.chars) reader := by
  have plain := not_startsComment_items items
  rcases separator.getValidData_touching touching plain chars with ⟨count, read, starts⟩
  exact not_yields_of_startsComment onlyString read starts invocations items

/-- At the end of the document the call returns `TOKEN_END`. -/
theorem yields_nil {reader : SolarFileReader} (onlyString : reader.mode = .whitespaceOnlyString)
    {text : TextBuffer} (read : reader.text.getValidData = text.getValidData)
    (ended : text.rest = []) (invocations : Nat) : Yields invocations [] reader := by
  have call := getNextTokenType_onlyString onlyString invocations
  have plain : ¬StartsComment text.rest := by
    rw [ended]
    decide
  have current := getcurchar_ended ended
  have unspaced : isSpace text.getcurchar = false := by
    rw [current]
    rfl
  rw [read, getValidData_plain plain unspaced, getchar, if_pos current] at call
  exact ⟨_, call⟩

/-- From a separator on the tokens are returned exactly when the comments are apart. -/
theorem yields_iff (invocations : Nat) {reader : SolarFileReader}
    (onlyString : reader.mode = .whitespaceOnlyString) (separator : Separator)
    (items : List (Token × Separator))
    (chars : reader.text.rest = separator.chars ++ itemsChars items) :
    Yields invocations (items.map fun item => item.1.chars) reader ↔
      separator.CommentsApart ∧ ∀ item ∈ items, item.2.CommentsApart := by
  have plain := not_startsComment_items items
  induction items generalizing reader separator with
  | nil =>
      by_cases apart : separator.CommentsApart
      · have read := separator.getValidData_eq apart plain chars
        have ended := rest_skip_append chars
        exact iff_of_true (yields_nil onlyString read ended invocations) ⟨apart, by simp⟩
      · exact iff_of_false (not_yields_of_touching onlyString apart chars invocations)
          fun all => apart all.1
  | cons item items ih =>
      by_cases apart : separator.CommentsApart
      · have read := separator.getValidData_eq apart plain chars
        have behind : (reader.text.skip separator.chars.length).rest =
            item.1.chars ++ (item.2.chars ++ itemsChars items) := by
          rw [rest_skip_append chars, ← List.append_assoc]
          rfl
        rcases returns_token onlyString read behind invocations with
          ⟨after, call, stored, mode, left⟩
        have later := ih mode item.2 left (not_startsComment_items items)
        rw [List.forall_mem_cons]
        constructor
        · rintro ⟨other, returned, -, yields⟩
          rw [call] at returned
          cases returned
          exact ⟨apart, later.mp yields⟩
        · rintro ⟨-, yields⟩
          exact ⟨after, call, stored, later.mpr yields⟩
      · exact iff_of_false (not_yields_of_touching onlyString apart chars invocations)
          fun all => apart all.1

/-- A reader with a document loaded. -/
structure Loaded (document : Document) (reader : SolarFileReader) : Prop where
  buffer : reader.text.buffer = document.chars
  start : reader.text.bufferPos = 0
  onlyString : reader.mode = .whitespaceOnlyString

theorem yields_iff_commentsApart {document : Document} {reader : SolarFileReader}
    (loaded : Loaded document reader) (invocations : Nat) :
    Yields invocations document.tokens reader ↔ document.CommentsApart := by
  apply yields_iff invocations loaded.onlyString
  rw [rest, loaded.buffer, loaded.start]
  rfl

theorem unended_a : ends ∉ [97] := by decide

theorem unclosed_a : ¬[asterisk, slash] <:+: [97] := by decide

/-- The text of `/*a*/` -/
def blockText : BlockText := ⟨[97], unended_a, unclosed_a⟩

theorem inLine_a : ∀ c ∈ [97], c ≠ ends ∧ c ≠ newline :=
  List.forall_mem_singleton.mpr (by decide)

/-- The text of `//a` -/
def lineText : LineText := ⟨[97], inLine_a⟩

theorem isSpace_space : isSpace space = true := rfl

def oneSpace : Blank := ⟨space, isSpace_space⟩

theorem nonempty_x : ([120] : List UInt8) ≠ [] := List.cons_ne_nil _ _

theorem unbroken_x : ∀ c ∈ [120], c ≠ ends ∧ isSpace c = false :=
  List.forall_mem_singleton.mpr (by decide)

theorem plain_x : ¬StartsComment [120] := by decide

theorem short_x : [120].length < maxTokenBufferSize := by decide

/-- The token `x` -/
def wordX : Token := ⟨[120], nonempty_x, unbroken_x, plain_x, short_x⟩

/-- The token behind some parts, with a space on both sides. -/
def wordBehind (parts : List SeparatorPart) : Document where
  lead := ⟨oneSpace, parts⟩
  items := [(wordX, ⟨oneSpace, []⟩)]

/-- ` /*a*/ //a\nx ` -/
def spaced : Document :=
  wordBehind [.block blockText, .blank oneSpace, .line lineText]

/-- ` /*a*//*a*/x ` -/
def touching : Document :=
  wordBehind [.block blockText, .block blockText]

theorem addressable_spaced : spaced.chars.length + 4 ≤ 2 ^ 32 := by decide

theorem addressable_touching : touching.chars.length + 4 ≤ 2 ^ 32 := by decide

/-- A reader for strings with a document in memory. -/
def loadDocument (document : Document) (addressable : document.chars.length + 4 ≤ 2 ^ 32) :
    SolarFileReader where
  tokenNumber := []
  tokenString := Memory.zero
  text := ⟨document.chars, 0, addressable⟩
  funcCB := none
  mode := .whitespaceOnlyString

theorem yields_spaced : Yields 0 spaced.tokens (loadDocument spaced addressable_spaced) := by
  have loaded : Loaded spaced (loadDocument spaced addressable_spaced) := ⟨rfl, rfl, rfl⟩
  apply (yields_iff_commentsApart loaded 0).mpr
  refine ⟨?_, ?_⟩
  · exact .cons_cons (fun _ => trivial) (.cons_cons (fun block => block.elim) (.singleton _))
  · intro item item_mem
    rw [List.mem_singleton.mp item_mem]
    exact .nil

/-- The second comment is returned as a token. -/
theorem not_yields_touching :
    ¬Yields 0 touching.tokens (loadDocument touching addressable_touching) := by
  have call : ((loadDocument touching addressable_touching).getNextTokenType 0).toOption.map
      (fun returned => returned.2.tokenString.read 0 2) = some [slash, asterisk] := by
    decide +kernel
  rintro ⟨after, returned, stored, -⟩
  rw [returned] at call
  have begins : after.tokenString.read 0 2 = [slash, asterisk] := Option.some.inj call
  have expected : after.tokenString.read 0 2 = [120, 0] := stored
  rw [begins] at expected
  contradiction

end SolarFileReader

end SunPush
