import Mathlib.Data.List.TakeWhile
import Mathlib.Order.Lattice.Nat
import SunPush.Library.Transition
import SunPush.Utility.Global

/-!
# Localisation of a cell

`_parsercell` replaces every marker `$L:key$` of a cell by what the language
callback returns for the key.  After each replacement it searches the cell from
the start again, the text that has been put in included.  As long as each round
leaves the cell lighter, in some weighting of the characters and of the keys of
its markers, this comes to an end.  So it does where no text holds or completes a
marker, and where the texts are lighter than their markers; a text that brings
the marker back that it stands for keeps it going for ever.
-/

namespace SunPush

open Substrings

/-- A string up to its terminator. -/
structure NulString where
  chars : List UInt8
  noNul : 0 ∉ chars

theorem notMem_takeWhile_ne (str : List UInt8) : 0 ∉ str.takeWhile (· ≠ 0) := by
  intro mem
  have nonzero := List.mem_takeWhile_imp mem
  simp at nonzero

/-- `c_str()`, as far as it is read. -/
def cStr (str : List UInt8) : NulString where
  chars := str.takeWhile (· ≠ 0)
  noNul := notMem_takeWhile_ne str

/-- `LanFindCallback` -/
abbrev LanFindCallback : Type := NulString → NulString

namespace ParserCell

/-- `"$"` -/
def dollar : List UInt8 := [36]

/-- `"$L:"` -/
def markerStart : List UInt8 := [36, 76, 58]

/-- `replacestr` and `findstr` of one round, for which `pos` is zero. -/
def nextMarker (str : List UInt8) : Option (List UInt8 × List UInt8) := do
  let pos ← find str markerStart 0
  let posEnd ← findFirstOf str dollar (pos + 3)
  return (substr str pos (posEnd - pos + 1), substr str (pos + 3) (posEnd - pos - 3))

/-- One round of the loop, `none` when there is no marker. -/
def parserRound (funcCB : LanFindCallback) (str : List UInt8) : Option (List UInt8) :=
  (nextMarker str).map fun found =>
    replaceAllDistinct str found.1 (funcCB (cStr found.2)).chars

/-- The loop of `_parsercell`, `none` when it takes more than so many calls of the callback. -/
def parserLoop (funcCB : LanFindCallback) : Nat → List UInt8 → Option (List UInt8)
  | 0, str => if (parserRound funcCB str).isSome then none else some str
  | invocations + 1, str =>
      match parserRound funcCB str with
      | some str => parserLoop funcCB invocations str
      | none => some str

def parsercell (funcCB : Option LanFindCallback) (invocations : Nat) (str : List UInt8) :
    Option (List UInt8) :=
  match funcCB with
  | some funcCB => parserLoop funcCB invocations str
  | none => some str

/-- `_parsercell` comes to an end. -/
def Terminates (funcCB : LanFindCallback) (str : List UInt8) : Prop :=
  ∃ invocations, (parsercell (some funcCB) invocations str).isSome

/-- The cells behind the rounds of the loop. -/
def parserSystem (funcCB : LanFindCallback) (str : List UInt8) :
    Transition.System (List UInt8) Unit where
  Initial cell := cell = str
  step cell _ := parserRound funcCB cell

/-- The keys of the markers of a text, whether a dollar ends them or the text does. -/
def keysOf : List UInt8 → List (List UInt8)
  | [] => []
  | first :: text =>
      if markerStart <+: first :: text then
        (text.drop 2).takeWhile (· ≠ 36) :: keysOf text
      else keysOf text

/-- What a text weighs: its characters and the keys of its markers. -/
def burden (weight : UInt8 → Nat) (rank : List UInt8 → Nat) (text : List UInt8) : Nat :=
  weigh weight text + ((keysOf text).map rank).sum

/-- With the text in the places of the next marker the cell weighs less than with the marker. -/
def Lightens (weight : UInt8 → Nat) (rank : List UInt8 → Nat) (funcCB : LanFindCallback)
    (cell : List UInt8) : Prop :=
  ∀ found ∈ nextMarker cell,
    burden weight rank (replaceAllDistinct cell found.1 (funcCB (cStr found.2)).chars) <
      burden weight rank cell

instance (weight : UInt8 → Nat) (rank : List UInt8 → Nat) (funcCB : LanFindCallback)
    (cell : List UInt8) : Decidable (Lightens weight rank funcCB cell) :=
  inferInstanceAs (Decidable (∀ found ∈ nextMarker cell, _ < _))

/-- In the places of the next marker the text neither holds the start of a marker nor completes one:
there are no more than with a NUL in these places. -/
def Quiet (funcCB : LanFindCallback) (cell : List UInt8) : Prop :=
  ∀ found ∈ nextMarker cell,
    occurrences markerStart
        (replaceAllDistinct cell found.1 (funcCB (cStr found.2)).chars) ≤
      occurrences markerStart (replaceAllDistinct cell found.1 [0])

/-- A marker for a key. -/
def marker (key : List UInt8) : List UInt8 := markerStart ++ key ++ dollar

theorem marker_ne_nil (key : List UInt8) : marker key ≠ [] :=
  List.cons_ne_nil _ _

/-- The two searches and the substrings between what they find. -/
theorem substr_marker (left key right : List UInt8) :
    let str := left ++ marker key ++ right
    let posEnd := left.length + 3 + key.length
    substr str left.length (posEnd - left.length + 1) = marker key ∧
      substr str (left.length + 3) (posEnd - left.length - 3) = key := by
  have whole : left.length + 3 + key.length - left.length + 1 = (marker key).length := by
    simp [marker, markerStart, dollar]
    omega
  have inner : left.length + 3 + key.length - left.length - 3 = key.length := by omega
  have width : left.length + 3 = (left ++ markerStart).length := by simp [markerStart]
  have text : left ++ marker key ++ right = left ++ markerStart ++ key ++ (dollar ++ right) := by
    simp [marker]
  refine ⟨?_, ?_⟩
  · rw [whole, substr_append]
  · rw [inner, width, text, substr_append]

/-- Where a marker is found. -/
theorem exists_of_nextMarker {str : List UInt8} {found : List UInt8 × List UInt8}
    (finds : nextMarker str = some found) :
    ∃ left right, found.1 = marker found.2 ∧ str = left ++ marker found.2 ++ right := by
  simp only [nextMarker, Option.bind_eq_bind, Option.bind_eq_some_iff, Option.pure_def,
    Option.some.injEq] at finds
  rcases finds with ⟨pos, starts, posEnd, ends, rfl⟩
  rw [find_zero] at starts
  rcases exists_of_occurrence starts with ⟨left, rest, rfl, rfl⟩
  have width : left.length + 3 = (left ++ markerStart).length := by simp [markerStart]
  rw [findFirstOf, width, List.drop_left, Option.map_eq_some_iff] at ends
  rcases ends with ⟨length, ends, rfl⟩
  rcases exists_of_findIdx? ends with ⟨key, last, right, rfl, rfl, is_dollar, -⟩
  obtain rfl : last = 36 := List.mem_singleton.mp is_dollar
  have text : left ++ markerStart ++ (key ++ 36 :: right) = left ++ marker key ++ right := by
    simp [marker, dollar]
  rcases substr_marker left key right with ⟨whole, inner⟩
  rw [text, ← width, whole, inner]
  exact ⟨left, right, rfl, rfl⟩

/-- The first marker is found behind text without a dollar. -/
theorem nextMarker_append {left key : List UInt8} (plain : 36 ∉ left) (closes : 36 ∉ key)
    (right : List UInt8) : nextMarker (left ++ marker key ++ right) = some (marker key, key) := by
  have text : left ++ marker key ++ right = left ++ markerStart ++ (key ++ 36 :: right) := by
    simp [marker, dollar]
  have starts : find (left ++ marker key ++ right) markerStart 0 = some left.length := by
    rw [find_zero, text]
    exact occurrence_append plain
  have width : left.length + 3 = (left ++ markerStart).length := by simp [markerStart]
  have ends : findFirstOf (left ++ marker key ++ right) dollar (left.length + 3) =
      some (left.length + 3 + key.length) := by
    have absent : ∀ other ∈ key, other ∉ dollar := by
      intro other other_mem is_dollar
      rw [List.mem_singleton.mp is_dollar] at other_mem
      exact closes other_mem
    rw [text, findFirstOf, width, List.drop_left,
      findIdx?_append absent (List.mem_singleton.mpr rfl)]
    rfl
  rcases substr_marker left key right with ⟨whole, inner⟩
  simp only [nextMarker, starts, ends, whole, inner, Option.bind_eq_bind, Option.bind_some,
    Option.pure_def]

/-! ## Termination -/

theorem lightens_iff {weight : UInt8 → Nat} {rank : List UInt8 → Nat} {funcCB : LanFindCallback}
    {cell : List UInt8} :
    Lightens weight rank funcCB cell ↔
      ∀ next ∈ parserRound funcCB cell, burden weight rank next < burden weight rank cell := by
  cases finds : nextMarker cell with
  | none => simp [Lightens, parserRound, finds]
  | some found => simp [Lightens, parserRound, finds]

/-- What is reached behind a round is reached. -/
theorem reachable_of_round {funcCB : LanFindCallback} {str next cell : List UInt8}
    (round : parserRound funcCB str = some next)
    (reached : (parserSystem funcCB next).Reachable cell) :
    (parserSystem funcCB str).Reachable cell := by
  induction reached with
  | initial start =>
      have first : (parserSystem funcCB str).Reachable str := .initial rfl
      rw [start]
      exact @Transition.System.ReachableBy.step _ _ _ _ _ _ () first trivial round
  | step _ meets enabled ih =>
      exact @Transition.System.ReachableBy.step _ _ _ _ _ _ () ih meets enabled

/-- As long as each round leaves the cell lighter, the loop ends within as many rounds as the cell
weighs. -/
theorem parserLoop_returns {weight : UInt8 → Nat} {rank : List UInt8 → Nat}
    {funcCB : LanFindCallback} {str : List UInt8}
    (lightens : ∀ cell, (parserSystem funcCB str).Reachable cell →
      Lightens weight rank funcCB cell)
    {invocations : Nat} (enough : burden weight rank str ≤ invocations) :
    ∃ result, parserLoop funcCB invocations str = some result := by
  induction invocations generalizing str with
  | zero =>
      cases round : parserRound funcCB str with
      | none => exact ⟨str, by simp [parserLoop, round]⟩
      | some next =>
          have lighter := lightens_iff.mp (lightens str (.initial rfl)) next round
          omega
  | succ invocations ih =>
      cases round : parserRound funcCB str with
      | none => exact ⟨str, by simp [parserLoop, round]⟩
      | some next =>
          have lighter := lightens_iff.mp (lightens str (.initial rfl)) next round
          simp only [parserLoop, round]
          apply ih
          · exact fun cell reached => lightens cell (reachable_of_round round reached)
          · omega

/-- As long as each text weighs less in its places than its marker, the callback is called at most
as often as the cell weighs. -/
theorem parsercell_returns {weight : UInt8 → Nat} {rank : List UInt8 → Nat}
    {funcCB : LanFindCallback} {str : List UInt8}
    (lightens : ∀ cell, (parserSystem funcCB str).Reachable cell →
      Lightens weight rank funcCB cell) :
    ∃ result, parsercell (some funcCB) (burden weight rank str) str = some result :=
  parserLoop_returns lightens le_rfl

/-- For the key `a` the characters of its own marker in another order, for `b` the marker of `bb`,
for all others an `x`. -/
def sampleTexts : LanFindCallback := fun key =>
  if key.chars = [97] then cStr [76, 58, 97, 36, 36]
  else if key.chars = [98] then cStr [36, 76, 58, 98, 98, 36]
  else cStr [120]

def sampleRank (key : List UInt8) : Nat := if key = [98] then 2 else 1

/-- A cell with three markers, of which the first one stands at both ends.  Its text completes a
marker with what stands in front of it at the one, and the text of the second one is searched
again. -/
theorem parsercell_returns_sample :
    ∃ result, parsercell (some sampleTexts) 4
      [36, 76, 58, 97, 36, 32, 36, 76, 58, 98, 36, 36, 76, 58, 97, 36] = some result := by
  let cells : List (List UInt8) :=
    [[36, 76, 58, 97, 36, 32, 36, 76, 58, 98, 36, 36, 76, 58, 97, 36],
      [76, 58, 97, 36, 36, 32, 36, 76, 58, 98, 36, 76, 58, 97, 36, 36],
      [76, 58, 97, 36, 36, 32, 36, 76, 58, 98, 98, 36, 76, 58, 97, 36, 36],
      [76, 58, 97, 36, 36, 32, 120, 76, 58, 97, 36, 36]]
  apply @parsercell_returns (fun _ => 0) sampleRank sampleTexts
    [36, 76, 58, 97, 36, 32, 36, 76, 58, 98, 36, 36, 76, 58, 97, 36]
  intro cell reached
  have among : cell ∈ cells := by
    refine @Transition.System.ReachableBy.invariant _ _ _ _ (fun cell => cell ∈ cells) ?_ ?_ _
      reached
    · rintro _ rfl
      exact List.mem_cons_self
    · rintro cell _ next cell_mem - goes_on
      have rounds : ∀ cell ∈ cells, ∀ next ∈ parserRound sampleTexts cell, next ∈ cells := by
        decide +kernel
      exact rounds cell cell_mem next goes_on
  have light : ∀ cell ∈ cells, Lightens (fun _ => 0) sampleRank sampleTexts cell := by
    decide +kernel
  exact light cell among

/-! ## Rounds that lighten the cell -/

/-- Where a marker is found it occurs. -/
theorem exists_occurrence_of_nextMarker {cell : List UInt8} {found : List UInt8 × List UInt8}
    (finds : nextMarker cell = some found) :
    found.1 = marker found.2 ∧ ∃ pos, occurrence found.1 cell = some pos := by
  rcases exists_of_nextMarker finds with ⟨left, right, marker_eq, cell_eq⟩
  refine ⟨marker_eq, ?_⟩
  rw [marker_eq, cell_eq]
  exact exists_occurrence left (marker found.2) right

/-- A text whose characters weigh less than those of the marker. -/
theorem lightens_of_lighter {weight : UInt8 → Nat} {funcCB : LanFindCallback} {cell : List UInt8}
    (lighter : ∀ found ∈ nextMarker cell,
      weigh weight (funcCB (cStr found.2)).chars < weigh weight found.1) :
    Lightens weight (fun _ => 0) funcCB cell := by
  intro found finds
  rcases exists_occurrence_of_nextMarker finds with ⟨-, pos, occurs⟩
  have less := weigh_replaceAll_lt (lighter found finds) occurs
  simp only [burden, replaceAllDistinct_eq, List.map_const', List.sum_replicate_nat]
  omega

theorem length_keysOf (text : List UInt8) :
    (keysOf text).length = occurrences markerStart text := by
  induction text with
  | nil => rfl
  | cons first text ih =>
      by_cases begins : markerStart <+: first :: text
      · rw [keysOf, occurrences, if_pos begins, if_pos begins, List.length_cons, ih]
        omega
      · rw [keysOf, occurrences, if_neg begins, if_neg begins, ih]
        omega

/-- A text that in its places neither holds nor completes a marker. -/
theorem lightens_of_quiet {funcCB : LanFindCallback} {cell : List UInt8}
    (quiet : Quiet funcCB cell) : Lightens (fun _ => 0) (fun _ => 1) funcCB cell := by
  intro found finds
  rcases exists_occurrence_of_nextMarker finds with ⟨marker_eq, pos, occurs⟩
  have nonempty : markerStart ≠ [] := List.cons_ne_nil _ _
  have within : 0 < occurrences markerStart found.1 := by
    rw [marker_eq, marker, List.append_assoc]
    exact occurrences_pos nonempty _
  have less := occurrences_replaceAll_lt nonempty
    (by decide : (0 : UInt8) ∉ markerStart) within occurs
  have kept := quiet found finds
  simp only [replaceAllDistinct_eq] at kept
  have weightless (text : List UInt8) : weigh (fun _ => 0) text = 0 := by
    simp [weigh]
  simp only [burden, weightless, List.map_const', List.sum_replicate_nat, length_keysOf,
    replaceAllDistinct_eq]
  omega

/-! ## Running on -/

theorem parserLoop_of_unchanged {funcCB : LanFindCallback} {str : List UInt8}
    (round : parserRound funcCB str = some str) (invocations : Nat) :
    parserLoop funcCB invocations str = none := by
  induction invocations with
  | zero => simp [parserLoop, round]
  | succ invocations ih =>
      rw [parserLoop, round]
      exact ih

/-- A text that is the marker it stands for is looked up for ever. -/
theorem not_terminates_itself : ¬Terminates (fun _ => cStr [36, 76, 58, 97, 36])
    [36, 76, 58, 97, 36] := by
  rintro ⟨invocations, returns⟩
  have round : parserRound (fun _ => cStr [36, 76, 58, 97, 36]) [36, 76, 58, 97, 36] =
      some [36, 76, 58, 97, 36] := by decide
  rw [parsercell, parserLoop_of_unchanged round] at returns
  contradiction

/-- The callback under which every key stands for the marker of another one, or for nothing. -/
def chain (next : List UInt8 → Option (List UInt8)) : LanFindCallback := fun key =>
  match next key.chars with
  | some key => cStr (marker key)
  | none => cStr []

/-- A key that a marker can have. -/
def IsKey (key : List UInt8) : Prop := 0 ∉ key ∧ 36 ∉ key

theorem cStr_chars_of_notMem {str : List UInt8} (noNul : 0 ∉ str) : (cStr str).chars = str := by
  apply List.takeWhile_eq_self_iff.mpr
  intro char char_mem
  apply decide_eq_true
  rintro rfl
  exact noNul char_mem

theorem parserRound_marker (funcCB : LanFindCallback) {key : List UInt8} (isKey : IsKey key) :
    parserRound funcCB (marker key) = some (funcCB (cStr key)).chars := by
  have finds := nextMarker_append (List.not_mem_nil (a := 36)) isKey.2 []
  rw [List.nil_append, List.append_nil] at finds
  have whole := @replaceAll_of_isPrefix _ _ (marker key) (funcCB (cStr key)).chars []
    (marker_ne_nil key)
  rw [List.append_nil, replaceAll, List.append_nil] at whole
  rw [parserRound, finds, Option.map_some, replaceAllDistinct_of_nonempty (marker_ne_nil key),
    whole]

theorem parserRound_chain {next : List UInt8 → Option (List UInt8)}
    (keys : ∀ key, ∀ other ∈ next key, IsKey other) {key : List UInt8} (isKey : IsKey key) :
    parserRound (chain next) (marker key) = some (((next key).map marker).getD []) := by
  rw [parserRound_marker _ isKey, chain, cStr_chars_of_notMem isKey.1]
  cases follows : next key with
  | none => rfl
  | some other =>
      have noNul : 0 ∉ marker other := by
        simp [marker, markerStart, dollar, (keys key other follows).1]
      simp only [Option.map_some, Option.getD_some]
      rw [cStr_chars_of_notMem noNul]

/-- From one marker on the loop comes to an end exactly when the keys do: whether it does is the
question whether an arbitrary iteration stops. -/
theorem terminates_chain_iff {next : List UInt8 → Option (List UInt8)}
    (keys : ∀ key, ∀ other ∈ next key, IsKey other) {key : List UInt8} (isKey : IsKey key) :
    Terminates (chain next) (marker key) ↔
      ∃ n, (fun key => key.bind next)^[n] (some key) = none := by
  constructor
  · rintro ⟨invocations, returns⟩
    rw [parsercell] at returns
    induction invocations generalizing key with
    | zero => simp [parserLoop, parserRound_chain keys isKey] at returns
    | succ invocations ih =>
        rw [parserLoop, parserRound_chain keys isKey] at returns
        cases follows : next key with
        | none => exact ⟨1, follows⟩
        | some other =>
            rw [follows] at returns
            rcases ih (keys key other follows) returns with ⟨n, ends⟩
            refine ⟨n + 1, ?_⟩
            rw [Function.iterate_succ_apply, Option.bind_some, follows]
            exact ends
  · rintro ⟨n, ends⟩
    induction n generalizing key with
    | zero => contradiction
    | succ n ih =>
        rw [Function.iterate_succ_apply, Option.bind_some] at ends
        have round := parserRound_chain keys isKey
        cases follows : next key with
        | none =>
            rw [follows] at round
            refine ⟨1, ?_⟩
            rw [parsercell, parserLoop, round]
            rfl
        | some other =>
            rw [follows] at round ends
            rcases ih (keys key other follows) ends with ⟨invocations, returns⟩
            refine ⟨invocations + 1, ?_⟩
            rw [parsercell, parserLoop, round]
            exact returns

theorem keysOf_append_dollar {key : List UInt8} (closes : 36 ∉ key) :
    keysOf (key ++ dollar) = [] := by
  induction key with
  | nil => rfl
  | cons first key ih =>
      rw [List.mem_cons, not_or] at closes
      have later : ¬markerStart <+: first :: (key ++ dollar) := by
        intro begins
        exact closes.1 (List.cons_prefix_cons.mp begins).1
      rw [List.cons_append, keysOf, if_neg later]
      exact ih closes.2

theorem keysOf_marker {key : List UInt8} (closes : 36 ∉ key) : keysOf (marker key) = [key] := by
  have plain : ∀ char ∈ key, decide (char ≠ 36) = true := by
    intro char char_mem
    apply decide_eq_true
    rintro rfl
    exact closes char_mem
  have ends : (key ++ dollar).takeWhile (fun char => decide (char ≠ 36)) = key := by
    rw [List.takeWhile_append_of_pos plain, dollar, List.takeWhile_cons_of_neg (by decide),
      List.append_nil]
  have letter : ¬markerStart <+: 76 :: 58 :: (key ++ dollar) := by
    intro begins
    exact absurd (List.cons_prefix_cons.mp begins).1 (by decide)
  have colon : ¬markerStart <+: 58 :: (key ++ dollar) := by
    intro begins
    exact absurd (List.cons_prefix_cons.mp begins).1 (by decide)
  change keysOf (36 :: 76 :: 58 :: (key ++ dollar)) = [key]
  rw [keysOf, if_pos ⟨key ++ dollar, rfl⟩, keysOf, if_neg letter, keysOf, if_neg colon,
    keysOf_append_dollar closes]
  exact congrArg (fun found => [found]) ends

/-- For such a callback nothing is left out: wherever the loop comes to an end, there are weights in
which every round leaves the cell lighter. -/
theorem terminates_chain_iff_lightens {next : List UInt8 → Option (List UInt8)}
    (keys : ∀ key, ∀ other ∈ next key, IsKey other) {key : List UInt8} (isKey : IsKey key) :
    Terminates (chain next) (marker key) ↔
      ∃ weight rank, ∀ cell, (parserSystem (chain next) (marker key)).Reachable cell →
        Lightens weight rank (chain next) cell := by
  constructor
  · intro terminates
    -- The rank of a key is the number of steps after which the keys end.
    let stops (key : List UInt8) : Set Nat :=
      {n | (fun key => key.bind next)^[n] (some key) = none}
    have ends : (stops key).Nonempty := (terminates_chain_iff keys isKey).mp terminates
    refine ⟨fun _ => 0, fun key => sInf (stops key), ?_⟩
    have weightless (text : List UInt8) : weigh (fun _ => 0) text = 0 := by
      simp [weigh]
    intro cell reached
    have shape : cell = [] ∨ ∃ key, cell = marker key ∧ IsKey key ∧ (stops key).Nonempty := by
      refine @Transition.System.ReachableBy.invariant _ _ _ _
        (fun cell => cell = [] ∨ ∃ key, cell = marker key ∧ IsKey key ∧ (stops key).Nonempty)
        ?_ ?_ _ reached
      · rintro _ rfl
        exact .inr ⟨key, rfl, isKey, ends⟩
      · rintro _ _ after (rfl | ⟨key, rfl, isKey, ends⟩) _ round
        · contradiction
        · rcases Option.some.inj ((parserRound_chain keys isKey).symm.trans round) with rfl
          cases follows : next key with
          | none => exact .inl rfl
          | some other =>
              refine .inr ⟨other, rfl, keys key other follows, ?_⟩
              rcases ends with ⟨n, ends⟩
              cases n with
              | zero => contradiction
              | succ n =>
                  change (fun key => key.bind next)^[n + 1] (some key) = none at ends
                  rw [Function.iterate_succ_apply, Option.bind_some, follows] at ends
                  exact ⟨n, ends⟩
    rcases shape with rfl | ⟨key, rfl, isKey, ends⟩
    · have silent : parserRound (chain next) [] = none := rfl
      rw [lightens_iff, silent]
      intro after round
      contradiction
    · rw [lightens_iff]
      intro after round
      rcases Option.some.inj ((parserRound_chain keys isKey).symm.trans round) with rfl
      have last := Nat.sInf_mem ends
      simp only [burden, weightless, Nat.zero_add, keysOf_marker isKey.2]
      cases steps : sInf (stops key) with
      | zero =>
          rw [steps] at last
          contradiction
      | succ n =>
          cases follows : next key with
          | none => simp [keysOf, steps]
          | some other =>
              rw [steps] at last
              change (fun key => key.bind next)^[n + 1] (some key) = none at last
              rw [Function.iterate_succ_apply, Option.bind_some, follows] at last
              have fewer : sInf (stops other) ≤ n := Nat.sInf_le last
              simp only [Option.map_some, Option.getD_some,
                keysOf_marker (keys key other follows).2, List.map_cons, List.map_nil,
                List.sum_cons, List.sum_nil, steps]
              omega
  · rintro ⟨weight, rank, lightens⟩
    rcases parserLoop_returns lightens le_rfl with ⟨result, returns⟩
    refine ⟨burden weight rank (marker key), ?_⟩
    rw [parsercell, returns]
    rfl

end ParserCell

end SunPush
