import Mathlib.Data.List.Basic
import Mathlib.Logic.Function.Basic

/-!
# Stream ciphers

A stream cipher translates symbols one at a time; the position it has reached
decides how the next symbol is translated, and moves on whatever the symbol is.
Translating a stream in pieces is therefore translating it at once, and a
translation is undone by the inverse translation from the same position.  A
call may also look at symbols without moving, which nothing after it notices.
-/

namespace StreamCipher

universe u v

variable {Position : Type u} {Symbol : Type v}

/-- Translate the symbols one by one; the first component is the position behind the last. -/
def translate (advance : Position → Position) (code : Position → Symbol → Symbol) :
    Position → List Symbol → Position × List Symbol
  | position, [] => (position, [])
  | position, symbol :: symbols =>
      let rest := translate advance code (advance position) symbols
      (rest.1, code position symbol :: rest.2)

/-- One use of a cipher: how it translates, on which symbols, and whether the position is kept. -/
structure Call (Position : Type u) (Symbol : Type v) where
  code : Position → Symbol → Symbol
  symbols : List Symbol
  moves : Bool

/-- The position after a call, and the symbols it returns. -/
def Call.apply (advance : Position → Position) (call : Call Position Symbol)
    (position : Position) : Position × List Symbol :=
  let result := translate advance call.code position call.symbols
  (if call.moves then result.1 else position, result.2)

/-- The position after a sequence of calls, and what its moving calls return. -/
def run (advance : Position → Position) :
    Position → List (Call Position Symbol) → Position × List Symbol
  | position, [] => (position, [])
  | position, call :: calls =>
      let first := call.apply advance position
      let rest := run advance first.1 calls
      (rest.1, (if call.moves then first.2 else []) ++ rest.2)

/-- The stream the moving calls translate. -/
def carried : List (Call Position Symbol) → List Symbol
  | [] => []
  | call :: calls => (if call.moves then call.symbols else []) ++ carried calls

section Translate

variable (advance : Position → Position) (code : Position → Symbol → Symbol)

theorem translate_append (position : Position) (first rest : List Symbol) :
    translate advance code position (first ++ rest) =
      ((translate advance code (translate advance code position first).1 rest).1,
        (translate advance code position first).2 ++
          (translate advance code (translate advance code position first).1 rest).2) := by
  induction first generalizing position with
  | nil => rfl
  | cons symbol symbols ih =>
      simp only [List.cons_append, translate]
      rw [ih (advance position)]

@[simp]
theorem length_translate (position : Position) (symbols : List Symbol) :
    (translate advance code position symbols).2.length = symbols.length := by
  induction symbols generalizing position with
  | nil => rfl
  | cons symbol symbols ih => simp [translate, ih]

/-- What holds of a position and of its successors holds wherever a translation ends. -/
theorem translate_invariant {Good : Position → Prop}
    (advances : ∀ position, Good position → Good (advance position)) {position : Position}
    (good : Good position) (symbols : List Symbol) :
    Good (translate advance code position symbols).1 := by
  induction symbols generalizing position with
  | nil => exact good
  | cons symbol symbols ih => exact ih (advances position good)

variable {advance code}

/-- A translation is undone by the inverse translation from the same position, which ends where
the translation ended. -/
theorem translate_inverse {decode : Position → Symbol → Symbol}
    (inverse : ∀ position, Function.LeftInverse (decode position) (code position))
    (position : Position) (symbols : List Symbol) :
    translate advance decode position (translate advance code position symbols).2 =
      ((translate advance code position symbols).1, symbols) := by
  induction symbols generalizing position with
  | nil => rfl
  | cons symbol symbols ih =>
      simp only [translate]
      rw [ih (advance position), inverse position symbol]

end Translate

section Calls

variable {advance : Position → Position} {code : Position → Symbol → Symbol}

/-- Calls that all move in one way translate what they carry as one stream, whatever the others
look at. -/
theorem run_eq_translate {calls : List (Call Position Symbol)}
    (uniform : ∀ call ∈ calls, call.moves = true → call.code = code) (position : Position) :
    run advance position calls = translate advance code position (carried calls) := by
  induction calls generalizing position with
  | nil => rfl
  | cons call calls ih =>
      have rest := ih fun other other_mem => uniform other (List.mem_cons_of_mem call other_mem)
      cases moves : call.moves with
      | false => simp [run, carried, Call.apply, moves, rest]
      | true =>
          have same := uniform call List.mem_cons_self moves
          simp only [run, carried, Call.apply, moves, if_true, rest, same]
          exact (translate_append advance code position call.symbols (carried calls)).symm

theorem run_invariant {Good : Position → Prop}
    (advances : ∀ position, Good position → Good (advance position))
    (calls : List (Call Position Symbol)) {position : Position} (good : Good position) :
    Good (run advance position calls).1 := by
  induction calls generalizing position with
  | nil => exact good
  | cons call calls ih =>
      apply ih
      cases moves : call.moves with
      | false => simpa [Call.apply, moves] using good
      | true =>
          simpa [Call.apply, moves] using
            translate_invariant advance call.code advances good call.symbols

/-- Two parties at one position, one translating and one undoing it: however each cuts the stream
into calls, the second gives back the first one's stream and both end at one position. -/
theorem run_inverse {decode : Position → Symbol → Symbol}
    (inverse : ∀ position, Function.LeftInverse (decode position) (code position))
    {coding decoding : List (Call Position Symbol)}
    (codes : ∀ call ∈ coding, call.moves = true → call.code = code)
    (decodes : ∀ call ∈ decoding, call.moves = true → call.code = decode) (position : Position)
    (received : carried decoding = (run advance position coding).2) :
    run advance position decoding = ((run advance position coding).1, carried coding) := by
  rw [run_eq_translate decodes, received, run_eq_translate codes]
  exact translate_inverse inverse position (carried coding)

end Calls

end StreamCipher
