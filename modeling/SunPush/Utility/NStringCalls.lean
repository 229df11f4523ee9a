import SunPush.Utility.NStringEncoding

/-!
# Calls on `nString` objects

The text of every string follows from the calls alone: what `malloc` finds in
the memory it returns, and where a string lies, cannot be seen from outside.  A
call may be given a pointer into a string, its own included.

The callers owe a call nothing but pointers to as many characters as they say,
counts that 16 bits can hold, and to `UTF8toANSI` a text that does not end within
a sequence.
-/

namespace SunPush

/-- A pointer that a call is given: to memory of the caller, or so many characters behind what the
`Get` of a string returns. -/
inductive StringPtr (S : Type) where
  | elsewhere (str : NulString)
  | inside (s : S) (index : Nat)

namespace StringPtr

variable {S : Type}

/-- The pointer as it is for the string that it is given to. -/
def toward [DecidableEq S] (chars : S → List UInt8) (target : S) : StringPtr S → CharPtr
  | .elsewhere str => .elsewhere str
  | .inside s index =>
      if s = target then .own index else .elsewhere (cStr ((chars s).drop index))

def chars (texts : S → StringText) : StringPtr S → List UInt8
  | .elsewhere str => str.chars
  | .inside s index => (texts s).chars.drop index

/-- A pointer into a string is not behind its end. -/
def Within (texts : S → StringText) : StringPtr S → Prop
  | .elsewhere _ => True
  | .inside s index => index ≤ (texts s).chars.length

instance decidableWithin (texts : S → StringText) :
    (str : StringPtr S) → Decidable (str.Within texts)
  | .elsewhere _ => inferInstanceAs (Decidable True)
  | .inside s index => inferInstanceAs (Decidable (index ≤ (texts s).chars.length))

end StringPtr

/-- The calls that change a string; `S` are the strings. -/
inductive StringCall (S : Type) where
  | set (s : S) (str : Option (StringPtr S))
  | setRange (s : S) (str : StringPtr S) (length : Nat)
  | assign (s rhs : S)
  | append (s : S) (str : StringPtr S)
  | appendRange (s : S) (str : StringPtr S) (numChars : Nat)
  | clear (s : S)
  | strip (s : S) (charSet : NulString)
  | terminateAtIndex (s : S) (index : Int)
  | stripTrailingSlash (s : S)
  | stripExtension (s : S)
  | convertBackslashes (s : S)
  | utf8ToAnsi (s : S)
  | ansiToUtf8 (s : S)

namespace StringCall

variable {S : Type}

/-- The string that a call changes. -/
def target : StringCall S → S
  | .set s _ | .setRange s _ _ | .assign s _ | .append s _ | .appendRange s _ _ | .clear s
  | .strip s _ | .terminateAtIndex s _ | .stripTrailingSlash s | .stripExtension s
  | .convertBackslashes s | .utf8ToAnsi s | .ansiToUtf8 s => s

section Calls

variable [DecidableEq S]

/-- What a call makes of the string that it changes. -/
def perform (safeCast : SafeCast) (strings : S → NString) (heap : Nat → UInt8) :
    StringCall S → Option NString
  | .set s str =>
      (strings s).set safeCast heap (str.map (·.toward (fun s => (strings s).get.chars) s))
  | .setRange s str length =>
      (strings s).setRange safeCast heap (some (str.toward (fun s => (strings s).get.chars) s))
        length
  | .assign s rhs =>
      if s = rhs then some (strings s) else (strings s).assign safeCast heap (strings rhs)
  | .append s str =>
      (strings s).append safeCast heap (str.toward (fun s => (strings s).get.chars) s)
  | .appendRange s str numChars =>
      (strings s).appendRange safeCast heap (str.toward (fun s => (strings s).get.chars) s) numChars
  | .clear s => some (strings s).delete
  | .strip s charSet => (strings s).strip charSet
  | .terminateAtIndex s index => (strings s).terminateAtIndex index
  | .stripTrailingSlash s => (strings s).stripTrailingSlash
  | .stripExtension s => (strings s).stripExtension
  | .convertBackslashes s => (strings s).convertBackslashes
  | .utf8ToAnsi s => (strings s).utf8ToAnsi
  | .ansiToUtf8 s => (strings s).ansiToUtf8 safeCast heap

/-- The text that a call makes. -/
def textAfter (texts : S → StringText) : StringCall S → StringText
  | .set s none => (texts s).deleted
  | .set s (some str) =>
      (texts s).replaced (str.toward (fun s => (texts s).chars) s) (str.chars texts).length
  | .setRange s str length => (texts s).replaced (str.toward (fun s => (texts s).chars) s) length
  | .assign s rhs => if s = rhs then texts s else .stored (texts rhs).chars
  | .append s str => (texts s).appended (str.chars texts)
  | .appendRange s str numChars => (texts s).appended ((str.chars texts).take numChars)
  | .clear s => (texts s).deleted
  | .strip s charSet => (texts s).stripped charSet
  | .terminateAtIndex s index => (texts s).cut index.toNat
  | .stripTrailingSlash s => (texts s).withoutTrailingSlash
  | .stripExtension s => (texts s).withoutExtension
  | .convertBackslashes s => (texts s).withSlashes
  | .utf8ToAnsi s =>
      { texts s with chars := ((ansiOfUtf8 (texts s).chars).getD []).takeWhile (· ≠ 0) }
  | .ansiToUtf8 s => .stored (utf8OfAnsi (texts s).chars)

/-- Whether a call reads and writes nothing but what its string and its arguments hold, passes its
assertions, and does not make a text too long. -/
def Safe (texts : S → StringText) : StringCall S → Prop
  | .set _ none => True
  | .set s (some str) =>
      (texts s).Lasts (str.toward (fun s => (texts s).chars) s) (str.chars texts).length
  | .setRange s str length => (texts s).Lasts (str.toward (fun s => (texts s).chars) s) length
  | .append s str =>
      (texts s).HasRoom (str.chars texts).length ∧
        (texts s).Apart (str.toward (fun s => (texts s).chars) s) (str.chars texts).length
  | .appendRange s str numChars =>
      (texts s).HasRoom numChars ∧
        (texts s).Apart (str.toward (fun s => (texts s).chars) s) numChars
  | .terminateAtIndex s index =>
      (texts s).isLiteral = false ∧ 0 ≤ index ∧ index < (texts s).length
  | .stripTrailingSlash s => (texts s).isLiteral = false ∨ (texts s).length ≤ 1
  | .convertBackslashes s => (texts s).isLiteral = false ∨ (texts s).length = 0
  | .utf8ToAnsi s => (texts s).isLiteral = false
  | .ansiToUtf8 s => (texts s).chars ≠ []
  | .assign _ _ | .clear _ | .strip _ _ | .stripExtension _ => True

end Calls

/-- What the caller of a string owes it. -/
def Legal (texts : S → StringText) : StringCall S → Prop
  | .set _ (some str) | .append _ str => str.Within texts ∧ (str.chars texts).length < 2 ^ 16
  | .setRange _ str count | .appendRange _ str count =>
      str.Within texts ∧ count ≤ (str.chars texts).length ∧ count < 2 ^ 16
  | .utf8ToAnsi s => (ansiOfUtf8 (texts s).chars).isSome
  | .ansiToUtf8 s => (utf8OfAnsi (texts s).chars).length < 2 ^ 16
  | _ => True

instance decidableLegal (texts : S → StringText) :
    (call : StringCall S) → Decidable (call.Legal texts)
  | .set _ (some str) | .append _ str =>
      inferInstanceAs (Decidable (str.Within texts ∧ (str.chars texts).length < 2 ^ 16))
  | .setRange _ str count | .appendRange _ str count =>
      inferInstanceAs (Decidable
        (str.Within texts ∧ count ≤ (str.chars texts).length ∧ count < 2 ^ 16))
  | .utf8ToAnsi s => inferInstanceAs (Decidable (ansiOfUtf8 (texts s).chars).isSome)
  | .ansiToUtf8 s => inferInstanceAs (Decidable ((utf8OfAnsi (texts s).chars).length < 2 ^ 16))
  | .set _ none | .assign _ _ | .clear _ | .strip _ _ | .terminateAtIndex _ _
  | .stripTrailingSlash _ | .stripExtension _ | .convertBackslashes _ =>
      inferInstanceAs (Decidable True)

end StringCall

namespace NString

open StringCall

variable {S : Type}

section Calls

variable [DecidableEq S]

def call (safeCast : SafeCast) (strings : S → NString) (heap : Nat → UInt8) (call : StringCall S) :
    Option (S → NString) :=
  (call.perform safeCast strings heap).map fun after => Function.update strings call.target after

/-- New strings, and any calls on them with any contents of the memory that is allocated. -/
def calls (S : Type) [DecidableEq S] (safeCast : SafeCast) :
    Transition.System (S → NString) ((Nat → UInt8) × StringCall S) where
  Initial strings := ∃ heap : S → Nat → UInt8, strings = fun s => construct (heap s)
  step strings label := call safeCast strings label.1 label.2

def textsAfter (texts : S → StringText) (call : StringCall S) : S → StringText :=
  Function.update texts call.target (call.textAfter texts)

/-- The calls, with the texts that they make. -/
def recorded (S : Type) [DecidableEq S] (safeCast : SafeCast) :
    Transition.System ((S → NString) × (S → StringText)) ((Nat → UInt8) × StringCall S) :=
  (calls S safeCast).withHistory (fun _ => .stored []) fun texts _ label =>
    textsAfter texts label.2

/-- Each call is one that its caller may make. -/
def CallsLegal (both : (S → NString) × (S → StringText))
    (label : (Nat → UInt8) × StringCall S) : Prop :=
  label.2.Legal both.2

instance (both : (S → NString) × (S → StringText)) (label : (Nat → UInt8) × StringCall S) :
    Decidable (CallsLegal both label) :=
  inferInstanceAs (Decidable (label.2.Legal both.2))

end Calls

/-! ## One call -/

section OneCall

variable {strings : S → NString} {texts : S → StringText}

theorem get_chars_of_shows (all : ∀ s, Shows (strings s) (texts s)) :
    (fun s => (strings s).get.chars) = fun s => (texts s).chars :=
  funext fun s => (all s).get_chars

variable [DecidableEq S]

theorem pointee_toward (all : ∀ s, Shows (strings s) (texts s)) (s : S) (str : StringPtr S) :
    (texts s).pointee (str.toward (fun s => (texts s).chars) s) = str.chars texts := by
  cases str with
  | elsewhere str => rfl
  | inside other index =>
      rw [StringPtr.toward, StringPtr.chars]
      split
      case isTrue same =>
        subst same
        rfl
      case isFalse =>
        exact CBlock.takeWhile_of_noNul fun mem => (all other).noNul (List.mem_of_mem_drop mem)

/-- A call that is safe makes the text that follows from it. -/
theorem perform_of_safe (safeCast : SafeCast) (all : ∀ s, Shows (strings s) (texts s))
    (heap : Nat → UInt8) {call : StringCall S} (legal : call.Legal texts)
    (safe : call.Safe texts) :
    ∃ after, call.perform safeCast strings heap = some after ∧
      Shows after (call.textAfter texts) := by
  cases call with
  | set s str =>
      cases str with
      | none => exact ⟨_, rfl, (all s).delete⟩
      | some str =>
          rw [Legal, ← pointee_toward all s] at legal
          rw [Safe, ← pointee_toward all s] at safe
          rw [perform, textAfter, get_chars_of_shows all, ← pointee_toward all s]
          exact (all s).set safeCast heap legal.2 safe
  | setRange s str length =>
      rw [Legal, ← pointee_toward all s] at legal
      rw [perform, get_chars_of_shows all]
      exact (all s).setRange safeCast heap legal.2.1 legal.2.2 safe
  | assign s rhs =>
      rw [perform, textAfter]
      split
      · exact ⟨_, rfl, all s⟩
      · exact (all s).assign safeCast heap (all rhs)
  | append s str =>
      rw [Legal, ← pointee_toward all s] at legal
      rw [Safe, ← pointee_toward all s] at safe
      rw [perform, textAfter, get_chars_of_shows all, ← pointee_toward all s]
      exact (all s).append safeCast heap legal.2 safe.1 safe.2
  | appendRange s str numChars =>
      rw [Legal, ← pointee_toward all s] at legal
      rw [perform, textAfter, get_chars_of_shows all, ← pointee_toward all s]
      exact (all s).appendRange safeCast heap legal.2.1 legal.2.2 safe.1 safe.2
  | clear s => exact ⟨_, rfl, (all s).delete⟩
  | strip s charSet => exact (all s).strip charSet
  | terminateAtIndex s index => exact (all s).terminateAtIndex safe.1 safe.2.1 safe.2.2
  | stripTrailingSlash s => exact (all s).stripTrailingSlash safe
  | stripExtension s => exact (all s).stripExtension
  | convertBackslashes s => exact (all s).convertBackslashes safe
  | utf8ToAnsi s =>
      rcases Option.isSome_iff_exists.mp legal with ⟨ansi, decodes⟩
      rw [textAfter, decodes]
      exact (all s).utf8ToAnsi safe decodes
  | ansiToUtf8 s => exact (all s).ansiToUtf8 safeCast heap safe legal

theorem perform_of_not_safe (safeCast : SafeCast) (all : ∀ s, Shows (strings s) (texts s))
    (heap : Nat → UInt8) {call : StringCall S} (legal : call.Legal texts)
    (unsafe_ : ¬call.Safe texts) : call.perform safeCast strings heap = none := by
  cases call with
  | set s str =>
      cases str with
      | none => exact absurd trivial unsafe_
      | some str =>
          rw [Legal, ← pointee_toward all s] at legal
          rw [Safe, ← pointee_toward all s] at unsafe_
          rw [perform, get_chars_of_shows all]
          exact (all s).set_eq_none safeCast heap legal.2 unsafe_
  | setRange s str length =>
      rw [perform, get_chars_of_shows all]
      exact (all s).setRange_eq_none safeCast heap legal.2.2 unsafe_
  | append s str =>
      rw [Legal, ← pointee_toward all s] at legal
      rw [Safe, ← pointee_toward all s] at unsafe_
      rw [perform, get_chars_of_shows all]
      exact (all s).append_eq_none safeCast heap legal.2 unsafe_
  | appendRange s str numChars =>
      rw [Legal, ← pointee_toward all s] at legal
      rw [perform, get_chars_of_shows all]
      exact (all s).appendRange_eq_none safeCast heap legal.2.1 legal.2.2 unsafe_
  | terminateAtIndex s index => exact (all s).terminateAtIndex_eq_none unsafe_
  | stripTrailingSlash s => exact (all s).stripTrailingSlash_eq_none unsafe_
  | convertBackslashes s => exact (all s).convertBackslashes_eq_none unsafe_
  | utf8ToAnsi s => exact (all s).utf8ToAnsi_eq_none (Bool.eq_true_of_not_eq_false unsafe_)
  | ansiToUtf8 s => exact (all s).ansiToUtf8_eq_none safeCast heap (not_not.mp unsafe_)
  | assign s rhs => exact absurd trivial unsafe_
  | clear s => exact absurd trivial unsafe_
  | strip s charSet => exact absurd trivial unsafe_
  | stripExtension s => exact absurd trivial unsafe_

theorem isSome_call_iff (safeCast : SafeCast) (all : ∀ s, Shows (strings s) (texts s))
    (heap : Nat → UInt8) {call : StringCall S} (legal : call.Legal texts) :
    (NString.call safeCast strings heap call).isSome ↔ call.Safe texts := by
  rw [NString.call, Option.isSome_map]
  constructor
  · intro succeeds
    by_contra unsafe_
    rw [perform_of_not_safe safeCast all heap legal unsafe_] at succeeds
    contradiction
  · intro safe
    rcases perform_of_safe safeCast all heap legal safe with ⟨after, performs, -⟩
    rw [performs]
    rfl

theorem shows_call {safeCast : SafeCast} (all : ∀ s, Shows (strings s) (texts s))
    {heap : Nat → UInt8} {call : StringCall S} (legal : call.Legal texts) {next : S → NString}
    (steps : NString.call safeCast strings heap call = some next) (s : S) :
    Shows (next s) (textsAfter texts call s) := by
  have safe : call.Safe texts := by
    rw [← isSome_call_iff safeCast all heap legal, steps]
    rfl
  rcases perform_of_safe safeCast all heap legal safe with ⟨after, performs, shows_after⟩
  rw [NString.call, performs] at steps
  rcases Option.some.inj steps with rfl
  change Shows (Function.update strings call.target after s) _
  by_cases changed : s = call.target
  · subst changed
    rw [textsAfter, Function.update_self, Function.update_self]
    exact shows_after
  · rw [textsAfter, Function.update_of_ne changed, Function.update_of_ne changed]
    exact all s

end OneCall

/-! ## Runs -/

section Runs

variable [DecidableEq S] {safeCast : SafeCast}

theorem shows_of_callsLegal {strings : S → NString} {texts : S → StringText}
    (reached : (recorded S safeCast).ReachableBy CallsLegal (strings, texts)) (s : S) :
    Shows (strings s) (texts s) := by
  have begins : ∀ strings : S → NString, (calls S safeCast).Initial strings →
      ∀ s, Shows (strings s) (.stored []) := by
    rintro strings ⟨heap, rfl⟩ s
    exact shows_construct (heap s)
  have preserved : ∀ (strings : S → NString) (texts : S → StringText) label next, True →
      (∀ s, Shows (strings s) (texts s)) → CallsLegal (strings, texts) label →
        (calls S safeCast).step strings label = some next →
          ∀ s, Shows (next s) (textsAfter texts label.2 s) := by
    rintro strings texts label next - all legal steps
    exact shows_call all legal steps
  have known (strings : S → NString) : (calls S safeCast).Reachable strings → True :=
    fun _ => trivial
  exact reached.history_invariant (fun _ _ _ => trivial) known begins preserved s

/-- After any calls that their callers may make, `Get` returns the text that follows from the
calls, `Length` never counts too few characters of it, and the next call succeeds exactly when it
is safe. -/
theorem texts_of_calls {strings : S → NString} {texts : S → StringText}
    (reached : (recorded S safeCast).ReachableBy CallsLegal (strings, texts)) :
    (∀ s, (strings s).get.chars = (texts s).chars ∧
      (strings s).length.toNat = (texts s).length ∧ (texts s).chars.length ≤ (texts s).length ∧
      (strings s).isEmpty = (texts s).chars.isEmpty) ∧
    ∀ heap (call : StringCall S), call.Legal texts →
      ((NString.call safeCast strings heap call).isSome ↔ call.Safe texts) := by
  have all := shows_of_callsLegal reached
  refine ⟨fun s => ?_, fun heap call legal => isSome_call_iff safeCast all heap legal⟩
  exact ⟨(all s).get_chars, (all s).length_eq, (all s).length_le, (all s).isEmpty_eq⟩

/-- `"a.b"` is copied, the copy loses its extension and goes on with that of the other, which is
then set to itself. -/
def extensionCalls : List ((Nat → UInt8) × StringCall Bool) :=
  [(fun _ => 0, .set false (some (.elsewhere ⟨[97, 46, 98], by decide⟩))),
    (fun _ => 7, .assign true false), (fun _ => 7, .stripExtension true),
    (fun _ => 7, .append true (.inside false 2)), (fun _ => 7, .set false (some (.inside false 0)))]

/-- `Length` still counts the extension that the copy has lost, and the string that was set to
itself is empty. -/
theorem texts_of_calls_extension :
    ∃ strings texts, (recorded Bool default).ReachableBy CallsLegal (strings, texts) ∧
      (strings true).get.chars = [97, 98] ∧ (strings true).length.toNat = 4 ∧
      (strings false).isEmpty = true ∧ (strings false).length.toNat = 3 ∧
      (NString.call default strings (fun _ => 7) (.utf8ToAnsi true)).isSome = true ∧
      (NString.call default strings (fun _ => 7) (.append true (.inside true 0))).isSome =
        false := by
  have starts : (recorded Bool default).Initial
      (fun _ => construct fun _ => 7, fun _ => .stored []) :=
    ⟨⟨fun _ _ => 7, rfl⟩, rfl⟩
  have runs : ∃ both, (recorded Bool default).run
      (fun _ => construct fun _ => 7, fun _ => .stored []) extensionCalls = some both ∧
        both.2 true = ⟨[97, 98], 4, false⟩ ∧ both.2 false = ⟨[], 3, false⟩ :=
    ⟨_, rfl, rfl, rfl⟩
  have meets : (recorded Bool default).RunMeets CallsLegal
      (fun _ => construct fun _ => 7, fun _ => .stored []) extensionCalls := by
    decide
  rcases runs with ⟨⟨strings, texts⟩, runs, copy, first⟩
  have reached := Transition.System.ReachableBy.run (.initial starts) meets runs
  rcases texts_of_calls reached with ⟨known, succeeds⟩
  rcases known true with ⟨get_true, length_true, -, -⟩
  rcases known false with ⟨-, length_false, -, empty_false⟩
  change texts true = _ at copy
  change texts false = _ at first
  have decodes : StringCall.Legal texts (.utf8ToAnsi true) := by
    change (ansiOfUtf8 (texts true).chars).isSome = true
    rw [copy]
    exact congrArg Option.isSome (ansiOfUtf8_utf8OfAnsi [97, 98])
  have itself : StringCall.Legal texts (.append true (.inside true 0)) := by
    change 0 ≤ (texts true).chars.length ∧ ((texts true).chars.drop 0).length < 2 ^ 16
    rw [copy]
    decide
  refine ⟨strings, texts, reached, ?_, ?_, ?_, ?_, ?_, ?_⟩
  · rw [get_true, copy]
  · rw [length_true, copy]
  · rw [empty_false, first]
    rfl
  · rw [length_false, first]
  · rw [succeeds _ _ decodes]
    change (texts true).isLiteral = false
    rw [copy]
    rfl
  · rw [Bool.eq_false_iff, Ne, succeeds _ _ itself]
    rintro ⟨-, apart⟩
    change ((texts true).chars.drop 0).length = 0 ∨ (texts true).onHeap = true ∨
      localStringSize ≤ (texts true).length + ((texts true).chars.drop 0).length at apart
    rw [copy] at apart
    revert apart
    decide

/-- What a string that is not empty holds as UTF-8, `UTF8toANSI` makes the codes of its characters,
and what it holds in 8-bit codes, `ANSItoUTF8` makes UTF-8 that `UTF8toANSI` takes back. -/
theorem encodings_of_calls {strings : S → NString} {texts : S → StringText}
    (reached : (recorded S safeCast).ReachableBy CallsLegal (strings, texts)) {s : S}
    (nonempty : (texts s).chars ≠ []) :
    (∀ unicode : List Char, (strings s).get.chars = unicode.flatMap String.utf8EncodeChar →
      ∃ after, (strings s).utf8ToAnsi = some after ∧
        after.get.chars = unicode.map latinCode) ∧
    ∀ heap, (utf8OfAnsi (strings s).get.chars).length < 2 ^ 16 →
      ∃ encoded decoded, (strings s).ansiToUtf8 safeCast heap = some encoded ∧
        encoded.get.chars =
          ((strings s).get.chars.map latinChar).flatMap String.utf8EncodeChar ∧
        encoded.utf8ToAnsi = some decoded ∧ decoded.get.chars = (strings s).get.chars := by
  have shows_ := shows_of_callsLegal reached s
  rw [shows_.get_chars]
  constructor
  · intro unicode encoded
    exact shows_.utf8ToAnsi_get nonempty encoded
  · intro heap small
    exact shows_.utf8ToAnsi_ansiToUtf8 safeCast heap nonempty small

/-- The UTF-8 text of U+00E9 and U+20AC becomes U+00E9 and a question mark. -/
theorem encodings_of_calls_euro :
    ∃ strings texts, (recorded Unit default).ReachableBy CallsLegal (strings, texts) ∧
      ∃ after, (strings ()).utf8ToAnsi = some after ∧ after.get.chars = [0xE9, 63] := by
  have starts : (recorded Unit default).Initial
      (fun _ => construct fun _ => 7, fun _ => .stored []) :=
    ⟨⟨fun _ _ => 7, rfl⟩, rfl⟩
  have runs : ∃ both, (recorded Unit default).run
      (fun _ => construct fun _ => 7, fun _ => .stored [])
      [(fun _ => 7, .set () (some (.elsewhere ⟨[0xC3, 0xA9, 0xE2, 0x82, 0xAC], by decide⟩)))] =
        some both ∧ both.2 () = ⟨[0xC3, 0xA9, 0xE2, 0x82, 0xAC], 5, false⟩ :=
    ⟨_, rfl, rfl⟩
  have meets : (recorded Unit default).RunMeets CallsLegal
      (fun _ => construct fun _ => 7, fun _ => .stored [])
      [(fun _ => 7, .set () (some (.elsewhere ⟨[0xC3, 0xA9, 0xE2, 0x82, 0xAC], by decide⟩)))] := by
    decide
  rcases runs with ⟨⟨strings, texts⟩, runs, text⟩
  change texts () = _ at text
  have reached := Transition.System.ReachableBy.run (.initial starts) meets runs
  have nonempty : (texts ()).chars ≠ [] := by
    rw [text]
    exact List.cons_ne_nil _ _
  have encoded : (strings ()).get.chars =
      [Char.ofNat 0xE9, Char.ofNat 0x20AC].flatMap String.utf8EncodeChar := by
    rw [(shows_of_callsLegal reached ()).get_chars, text]
    decide
  rcases (encodings_of_calls reached nonempty).1 _ encoded with ⟨after, converts, codes⟩
  refine ⟨strings, texts, reached, after, converts, codes.trans ?_⟩
  decide

end Runs

end NString

end SunPush
