import SunPush.Library.Transition
import SunPush.Utility.TokenText

/-!
# The progress of the tokenizers

A call that does not return `TOKEN_END` has read a character in the buffer and ends
behind it: the tokenizers rewind no further than over the character that they read
last.  So there are no more such calls than characters before the first `TOKEN_END`.
`IsEOF` looks ahead over the same blanks and comments and goes back.
-/

namespace SunPush

open TokenChar TextBuffer

namespace SolarFileReader

/-- The calls of a user of the reader, with what they return. -/
inductive TokenCall where
  | getNextTokenType (returns : TokenType)
  | isEOF (returns : Bool)
  deriving DecidableEq

/-- A call that returns a token. -/
def TokenCall.isToken (call : TokenCall) : Bool :=
  match call with
  | .getNextTokenType returns => returns != .tokenEnd
  | .isEOF _ => false

/-- The calls on a loaded reader. -/
def tokenSystem (invocations : Nat) (loaded : SolarFileReader) :
    Transition.System SolarFileReader TokenCall where
  Initial reader := reader = loaded
  step reader call :=
    match call with
    | .getNextTokenType returns =>
        match reader.getNextTokenType invocations with
        | .ok (type, after) => if type = returns then some after else none
        | .error _ => none
    | .isEOF returns =>
        if reader.isEOF.1 = returns then some reader.isEOF.2 else none

theorem isEOF_eq (reader : SolarFileReader) :
    reader.isEOF = (reader.text.getValidData.1 == ends, reader) := by
  rcases getValidData_eq reader.text with ⟨count, read, -⟩
  simp only [isEOF, read]
  rfl

/-- What a call that returns does. -/
theorem getNextTokenType_ok {invocations : Nat} {reader after : SolarFileReader}
    {type : TokenType} (separates : reader.mode ≠ .error)
    (returned : reader.getNextTokenType invocations = .ok (type, after)) :
    after.mode = reader.mode ∧ after.funcCB = reader.funcCB ∧
      after.text.buffer = reader.text.buffer ∧
      (type = .tokenEnd ↔ reader.text.getValidData.1 = ends) ∧
      (type ≠ .tokenEnd → reader.text.bufferPos < after.text.bufferPos ∧
        reader.text.bufferPos.toNat < reader.text.buffer.length) := by
  rcases getValidData_eq reader.text with ⟨first, read, inside⟩
  rw [getNextTokenType_eq separates] at returned
  split at returned
  case isTrue ended =>
    cases returned
    refine ⟨rfl, rfl, ?_, ⟨fun _ => ended, fun _ => rfl⟩, fun token => absurd rfl token⟩
    rw [read]
    rfl
  case isFalse valid =>
    have first_lt := inside valid
    have within : reader.text.rest ≠ [] := List.ne_nil_of_length_pos (by omega)
    rcases tokenize_ok separates returned with ⟨token, mode, funcCB, count, bounded, moved⟩
    have position : reader.text.getValidData.2 = reader.text.skip (first + 1) := by
      rw [read, getchar, skip_skip]
    simp only [position, skip_skip] at moved
    rw [position, rest_skip within (by omega), List.length_drop] at bounded
    have further := @bufferPos_skip _ (first + 1 + count) within (by omega)
    refine ⟨mode, funcCB, ?_, ⟨fun ended => absurd ended token, fun ended => absurd ended valid⟩,
      fun _ => ⟨?_, ?_⟩⟩
    · rw [moved]
      rfl
    · rw [moved, BitVec.lt_def, further]
      omega
    · rw [rest, ne_eq, List.drop_eq_nil_iff] at within
      omega

/-- A call returns when the token fits and nothing is localised. -/
theorem exists_getNextTokenType {reader : SolarFileReader} (separates : reader.mode ≠ .error)
    (plain : reader.funcCB = none) (fits : reader.FitsToken) (invocations : Nat) :
    ∃ type after, reader.getNextTokenType invocations = .ok (type, after) := by
  rw [getNextTokenType_eq separates]
  split
  case isTrue ended => exact ⟨_, _, rfl⟩
  case isFalse valid =>
    have short := fits valid
    by_cases cell : reader.mode = .tab
    · rw [cell, tokenize, readCell_eq]
      simp only
      split
      · exact ⟨_, _, rfl⟩
      · have unchanged : reader.clear.funcCB = none := plain
        rw [unchanged]
        exact ⟨_, _, rfl⟩
    · rcases stores_tokenize invocations separates cell reader.text.getValidData.1
        { reader.clear with text := reader.text.getValidData.2 } with
        ⟨type, number, count, -, -, result⟩
      rw [if_neg cell] at short
      rw [result, if_pos short]
      exact ⟨_, _, rfl⟩

/-- Behind some calls: before the first `TOKEN_END` the calls that have returned tokens are no more
than the positions passed, and all began in the buffer. -/
structure Progress (loaded : SolarFileReader) (calls : List TokenCall) (reader : SolarFileReader) :
    Prop where
  mode : reader.mode = loaded.mode
  funcCB : reader.funcCB = loaded.funcCB
  buffer : reader.text.buffer = loaded.text.buffer
  counted : .getNextTokenType .tokenEnd ∉ calls →
    calls.countP TokenCall.isToken ≤ reader.text.bufferPos.toNat ∧
      calls.countP TokenCall.isToken ≤ loaded.text.buffer.length

theorem step_getNextTokenType {invocations : Nat} {loaded reader next : SolarFileReader}
    {returns : TokenType}
    (enabled : (tokenSystem invocations loaded).step reader (.getNextTokenType returns) =
      some next) :
    reader.getNextTokenType invocations = .ok (returns, next) := by
  simp only [tokenSystem] at enabled
  split at enabled
  case h_1 type after returned =>
    split at enabled
    case isTrue same =>
      cases enabled
      rw [returned, same]
    case isFalse => contradiction
  case h_2 => contradiction

theorem step_isEOF {invocations : Nat} {loaded reader next : SolarFileReader} {returns : Bool}
    (enabled : (tokenSystem invocations loaded).step reader (.isEOF returns) = some next) :
    next = reader := by
  simp only [tokenSystem, isEOF_eq] at enabled
  split at enabled
  case isTrue => exact (Option.some.inj enabled).symm
  case isFalse => contradiction

theorem Progress.step {invocations : Nat} {loaded reader next : SolarFileReader}
    {calls : List TokenCall} {call : TokenCall} (progress : Progress loaded calls reader)
    (separates : loaded.mode ≠ .error)
    (enabled : (tokenSystem invocations loaded).step reader call = some next) :
    Progress loaded (calls ++ [call]) next := by
  cases call with
  | isEOF returns =>
      rw [step_isEOF enabled]
      refine ⟨progress.mode, progress.funcCB, progress.buffer, ?_⟩
      intro goes
      rw [List.countP_append]
      exact progress.counted fun ended => goes (List.mem_append_left _ ended)
  | getNextTokenType returns =>
      rw [← progress.mode] at separates
      rcases getNextTokenType_ok separates (step_getNextTokenType enabled) with
        ⟨mode, funcCB, buffer, -, moves⟩
      refine ⟨mode.trans progress.mode, funcCB.trans progress.funcCB,
        buffer.trans progress.buffer, ?_⟩
      intro goes
      rw [List.mem_append, not_or, List.mem_singleton] at goes
      have token : returns ≠ .tokenEnd := fun ended => goes.2 (congrArg _ ended.symm)
      rcases progress.counted goes.1 with ⟨passed, bounded⟩
      rcases moves token with ⟨further, inside⟩
      rw [progress.buffer] at inside
      rw [BitVec.lt_def] at further
      have one : [TokenCall.getNextTokenType returns].countP TokenCall.isToken = 1 := by
        simp [TokenCall.isToken, token]
      rw [List.countP_append, one]
      omega

theorem Progress.run {invocations : Nat} {loaded reader final : SolarFileReader}
    {before calls : List TokenCall} (progress : Progress loaded before reader)
    (separates : loaded.mode ≠ .error)
    (runs : (tokenSystem invocations loaded).run reader calls = some final) :
    Progress loaded (before ++ calls) final := by
  induction calls generalizing reader before with
  | nil =>
      simp only [Transition.System.run_nil, Option.some.injEq] at runs
      subst runs
      rw [List.append_nil]
      exact progress
  | cons call calls ih =>
      rw [Transition.System.run_cons, Option.bind_eq_some_iff] at runs
      rcases runs with ⟨next, enabled, rest⟩
      rw [List.append_cons]
      exact ih (progress.step separates enabled) rest

/-- At any point the next call returns `TOKEN_END` or moves on, before the first `TOKEN_END` there
are no more tokens than characters, and `IsEOF` tells the next `TOKEN_END` without a change. -/
theorem tokenizer_progresses (invocations : Nat) {loaded reader : SolarFileReader}
    {calls : List TokenCall} (separates : loaded.mode ≠ .error) (plain : loaded.funcCB = none)
    (runs : (tokenSystem invocations loaded).run loaded calls = some reader) :
    (reader.FitsToken → ∃ type after,
      reader.getNextTokenType invocations = .ok (type, after) ∧
        (type = .tokenEnd ∨ reader.text.bufferPos < after.text.bufferPos)) ∧
      (.getNextTokenType .tokenEnd ∉ calls →
        calls.countP TokenCall.isToken ≤ loaded.text.buffer.length) ∧
      reader.isEOF.2 = reader ∧
      (reader.isEOF.1 = true ↔
        ∃ after, reader.getNextTokenType invocations = .ok (.tokenEnd, after)) := by
  have start : Progress loaded [] loaded := ⟨rfl, rfl, rfl, fun _ => by simp⟩
  have progress := start.run separates runs
  rw [← progress.mode] at separates
  rw [← progress.funcCB] at plain
  refine ⟨?_, fun goes => (progress.counted goes).2, ?_, ?_⟩
  · intro fits
    rcases exists_getNextTokenType separates plain fits invocations with ⟨type, after, returned⟩
    refine ⟨type, after, returned, ?_⟩
    rcases getNextTokenType_ok separates returned with ⟨-, -, -, -, moves⟩
    by_cases ended : type = .tokenEnd
    · exact .inl ended
    · exact .inr (moves ended).1
  · rw [isEOF_eq]
  · rw [isEOF_eq, beq_iff_eq]
    constructor
    · intro ended
      rw [getNextTokenType_eq separates, if_pos ended]
      exact ⟨_, rfl⟩
    · rintro ⟨after, returned⟩
      rcases getNextTokenType_ok separates returned with ⟨-, -, -, ends_iff, -⟩
      exact ends_iff.mp rfl

/-- Two names behind a comment, `/**/ab c`. -/
def twoNames : SolarFileReader where
  tokenNumber := []
  tokenString := Memory.zero
  text := ⟨[47, 42, 42, 47, 97, 98, 32, 99], 0, by decide⟩
  funcCB := none
  mode := .whitespaceOnlyString

def firstName : List TokenCall :=
  [.isEOF false, .getNextTokenType .tokenString]

theorem isSome_firstName : ((tokenSystem 0 twoNames).run twoNames firstName).isSome = true := by
  decide +kernel

/-- The reader behind the first name. -/
def behindFirst : SolarFileReader :=
  ((tokenSystem 0 twoNames).run twoNames firstName).get isSome_firstName

theorem fitsToken_behindFirst : behindFirst.FitsToken := by
  intro _
  rw [if_neg (by decide +kernel)]
  decide +kernel

theorem tokenizer_progresses_behindFirst :
    (∃ type after, behindFirst.getNextTokenType 0 = .ok (type, after) ∧
      (type = .tokenEnd ∨ behindFirst.text.bufferPos < after.text.bufferPos)) ∧
      firstName.countP TokenCall.isToken ≤ 8 ∧ behindFirst.isEOF.2 = behindFirst := by
  have runs : (tokenSystem 0 twoNames).run twoNames firstName = some behindFirst :=
    (Option.some_get isSome_firstName).symm
  have separates : twoNames.mode ≠ .error := by decide
  rcases tokenizer_progresses 0 separates rfl runs with ⟨moves, counted, unchanged, -⟩
  exact ⟨moves fitsToken_behindFirst, counted (by decide), unchanged⟩

end SolarFileReader

end SunPush
