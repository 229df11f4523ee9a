import SunPush.Socket.NetMsg
import Mathlib.Algebra.BigOperators.Intervals
import Mathlib.Algebra.Order.BigOperators.Group.Finset

/-!
# The three encoders

`Send`, `SendMulti` and `SendEx` of `Socket.cpp` in the default build, up to
their call of `Session::Send`.  Each builds its frames in a `SendBuf` of
`maxMsgSize` bytes on its own stack.  A call is described by the `memcpy` calls
it makes, in order, and the length it passes on; what lands outside the buffer
is described like the rest.

The assertions are absent, as in a release build.  Arrays are functions of the
index, so what the code reads behind an array has a value too.
-/

namespace SunPush

open CInteger

/-- One `memcpy` into `SendBuf`: the offset, the `size_t` count and the bytes at the source. -/
structure Copy where
  offset : Int
  count : Nat
  source : Nat → UInt8

/-- Every byte of the copy lands inside the buffer. -/
def Copy.Inside (copy : Copy) : Prop :=
  ∀ i : Nat, i < copy.count → 0 ≤ copy.offset + i ∧ copy.offset + i < maxMsgSize

/-- What one call does: its copies, and the length it hands to `Session::Send` unless it returns
`FALSE`. -/
structure SendCall where
  copies : List Copy
  sent : Option Int

namespace SendCall

/-- A call that returns `FALSE` before it touches its buffer. -/
def refused : SendCall where
  copies := []
  sent := none

/-- `SendBuf` after the copies; `stack` is what it held before. -/
def sendBuf (call : SendCall) (stack : Memory) : Memory :=
  call.copies.foldl (fun buffer copy => buffer.copy copy.offset copy.source copy.count) stack

/-- If the call gets past its own checks, all it copies lands inside its buffer. -/
def StaysInside (call : SendCall) : Prop :=
  call.sent.isSome → ∀ copy ∈ call.copies, copy.Inside

end SendCall

/-- The bytes from the address of a `WORD` on; `beyond` are those behind it. -/
def wordBytes (value : Nat) (beyond : Nat → UInt8) (i : Nat) : UInt8 :=
  if i < 2 then (LittleEndian.encode 2 value).getD i 0 else beyond (i - 2)

/-- The bytes from the address of `pwSize[index]` on. -/
def sizeBytes (pwSize : Nat → Int16) (index i : Nat) : UInt8 :=
  (LittleEndian.encode 2 (toUInt16 (pwSize (index + i / 2)).toInt)).getD (i % 2) 0

/-- `Send`.  `found` says whether `GetSession` yields a session, and `beyond` are the bytes behind
the 16-bit parameter, of which the copy of the header takes two. -/
def send (stopSocketFlag found : Bool) (data : Nat → UInt8) (length : UInt16)
    (beyond : Nat → UInt8) : SendCall :=
  if maxMsgSize < length.toNat then .refused
  else if stopSocketFlag then .refused
  else if !found then .refused
  else
    { copies :=
        [⟨0, 4, wordBytes length.toNat beyond⟩, ⟨4, toSizeT length.toNat, data⟩]
      sent := some (length.toNat + 4) }

/-- `for (i = 0; i < nMessageCount; ++i)`: the copies of the turns from `i` on, the first of which
starts at `offset`, and the final `offset`. -/
def forMessages (copies : Nat → Int → List Copy) (advance : Nat → Int) :
    (i : Nat) → (offset : Int) → (remaining : Nat) → List Copy × Int
  | _, offset, 0 => ([], offset)
  | i, offset, remaining + 1 =>
      let rest := forMessages copies advance (i + 1) (offset + advance i) remaining
      (copies i offset ++ rest.1, rest.2)

/-- One turn of the loop in `SendMulti`: a header and a payload. -/
def multiCopies (ppMsg : Nat → Nat → UInt8) (pwSize : Nat → Int16) (i : Nat) (offset : Int) :
    List Copy :=
  [⟨offset, packetHeaderLength, sizeBytes pwSize i⟩,
    ⟨offset + packetHeaderLength, toSizeT (pwSize i).toInt, ppMsg i⟩]

def sendMulti (stopSocketFlag found : Bool) (messageCount : Int16) (ppMsg : Nat → Nat → UInt8)
    (pwSize : Nat → Int16) : SendCall :=
  if stopSocketFlag then .refused
  else if !found then .refused
  else
    let loop := forMessages (multiCopies ppMsg pwSize)
      (fun i => packetHeaderLength + (pwSize i).toInt) 0 0 messageCount.toInt.toNat
    { copies := loop.1, sent := some loop.2 }

/-- The first loop of `SendEx`: the running sum in the 16-bit `header.size`. -/
def headerSize (pwSize : Nat → Int16) : (i : Nat) → (size : Nat) → (remaining : Nat) → Nat
  | _, size, 0 => size
  | i, size, remaining + 1 =>
      headerSize pwSize (i + 1) (toUInt16 (size + (pwSize i).toInt)) remaining

/-- One turn of the second loop in `SendEx`: a payload. -/
def exCopies (ppMsg : Nat → Nat → UInt8) (pwSize : Nat → Int16) (i : Nat) (offset : Int) :
    List Copy :=
  [⟨offset, toSizeT (pwSize i).toInt, ppMsg i⟩]

/-- `SendEx`.  The header is copied before the sum is checked; `beyond` are the bytes behind the
local `header`, whose only field has 16 bits. -/
def sendEx (stopSocketFlag found : Bool) (messageCount : Int16) (ppMsg : Nat → Nat → UInt8)
    (pwSize : Nat → Int16) (beyond : Nat → UInt8) : SendCall :=
  if stopSocketFlag then .refused
  else if !found then .refused
  else
    let size := headerSize pwSize 0 0 messageCount.toInt.toNat
    let header : Copy := ⟨0, packetHeaderLength, wordBytes size beyond⟩
    if maxMsgSize < size then { copies := [header], sent := none }
    else
      let loop := forMessages (exCopies ppMsg pwSize) (fun i => (pwSize i).toInt) 0
        packetHeaderLength messageCount.toInt.toNat
      { copies := header :: loop.1, sent := some loop.2 }

/-! ## Copies inside the buffer -/

namespace Copy

theorem inside_iff {offset : Int} {count : Nat} {source : Nat → UInt8} (lower : 0 ≤ offset) :
    (Copy.mk offset count source).Inside ↔ count = 0 ∨ offset + count ≤ maxMsgSize := by
  constructor
  · intro inside
    rcases Nat.eq_zero_or_pos count with none | some
    · exact .inl none
    · have last := (inside (count - 1) (by change count - 1 < count; omega)).2
      change offset + ((count - 1 : Nat) : Int) < maxMsgSize at last
      omega
  · intro bound i i_lt
    change i < count at i_lt
    change 0 ≤ offset + i ∧ offset + i < maxMsgSize
    omega

/-- A payload whose `short` length is negative is copied with a length beyond every buffer. -/
theorem inside_size_iff {offset : Int} {size : Int16} {source : Nat → UInt8} (lower : 0 ≤ offset)
    (upper : offset ≤ maxMsgSize) :
    (Copy.mk offset (toSizeT size.toInt) source).Inside ↔
      0 ≤ size.toInt ∧ offset + size.toInt ≤ maxMsgSize := by
  have low := size.le_toInt
  have high := size.toInt_lt
  rw [inside_iff lower]
  simp only [maxMsgSize] at upper ⊢
  rcases lt_or_ge size.toInt 0 with negative | nonneg
  · rw [toSizeT_of_neg (by omega) negative]
    omega
  · rw [toSizeT_of_nonneg nonneg (by omega)]
    omega

end Copy

section Loop

variable {copies : Nat → Int → List Copy} {advance size : Nat → Int}

/-- The copies of a loop land inside exactly when no size is negative and the final offset is. -/
theorem forMessages_inside_iff
    (turn : ∀ (i : Nat) (offset : Int), 0 ≤ offset → offset ≤ maxMsgSize →
      ((∀ copy ∈ copies i offset, copy.Inside) ↔
        0 ≤ size i ∧ offset + advance i ≤ maxMsgSize))
    (advances : ∀ i, size i ≤ advance i) {i : Nat} {offset : Int} {remaining : Nat}
    (lower : 0 ≤ offset) (upper : offset ≤ maxMsgSize) :
    (∀ copy ∈ (forMessages copies advance i offset remaining).1, copy.Inside) ↔
      (∀ j < remaining, 0 ≤ size (i + j)) ∧
        offset + ∑ j ∈ Finset.range remaining, advance (i + j) ≤ maxMsgSize := by
  induction remaining generalizing i offset with
  | zero => simpa [forMessages] using upper
  | succ remaining ih =>
      have sizes : (∀ j < remaining + 1, 0 ≤ size (i + j)) ↔
          0 ≤ size i ∧ ∀ j < remaining, 0 ≤ size (i + 1 + j) := by
        constructor
        · intro nonneg
          refine ⟨nonneg 0 (by omega), ?_⟩
          intro j j_lt
          have := nonneg (j + 1) (by omega)
          rwa [show i + 1 + j = i + (j + 1) by omega]
        · rintro ⟨first, rest⟩ j j_lt
          cases j with
          | zero => exact first
          | succ j =>
              have := rest j (by omega)
              rwa [show i + (j + 1) = i + 1 + j by omega]
      have sum : ∑ j ∈ Finset.range (remaining + 1), advance (i + j) =
          advance i + ∑ j ∈ Finset.range remaining, advance (i + 1 + j) := by
        rw [Finset.sum_range_succ', Int.add_comm]
        simp only [Nat.add_zero, Nat.add_assoc, Nat.add_comm 1]
      simp only [forMessages, List.forall_mem_append]
      rw [turn i offset lower upper, sizes, sum, ← Int.add_assoc]
      constructor
      · rintro ⟨⟨first, fits⟩, rest⟩
        have := advances i
        rw [ih (by omega) fits] at rest
        exact ⟨⟨first, rest.1⟩, rest.2⟩
      · rintro ⟨⟨first, rest⟩, bound⟩
        have nonneg : 0 ≤ ∑ j ∈ Finset.range remaining, advance (i + 1 + j) := by
          apply Finset.sum_nonneg
          intro j j_mem
          exact (rest j (Finset.mem_range.mp j_mem)).trans (advances _)
        have fits : offset + advance i ≤ maxMsgSize := by omega
        have := advances i
        refine ⟨⟨first, fits⟩, ?_⟩
        rw [ih (by omega) fits]
        exact ⟨rest, bound⟩

end Loop

theorem multiCopies_inside_iff (ppMsg : Nat → Nat → UInt8) (pwSize : Nat → Int16) (i : Nat)
    (offset : Int) (lower : 0 ≤ offset) :
    (∀ copy ∈ multiCopies ppMsg pwSize i offset, copy.Inside) ↔
      0 ≤ (pwSize i).toInt ∧
        offset + (packetHeaderLength + (pwSize i).toInt) ≤ maxMsgSize := by
  simp only [multiCopies, List.forall_mem_cons, List.not_mem_nil, false_implies, implies_true,
    and_true]
  rw [Copy.inside_iff lower]
  simp only [packetHeaderLength] at *
  constructor
  · rintro ⟨header, payload⟩
    rw [Copy.inside_size_iff (by omega) (by omega)] at payload
    omega
  · rintro ⟨nonneg, fits⟩
    rw [Copy.inside_size_iff (by omega) (by omega)]
    omega

theorem exCopies_inside_iff (ppMsg : Nat → Nat → UInt8) (pwSize : Nat → Int16) (i : Nat)
    (offset : Int) (lower : 0 ≤ offset) (upper : offset ≤ maxMsgSize) :
    (∀ copy ∈ exCopies ppMsg pwSize i offset, copy.Inside) ↔
      0 ≤ (pwSize i).toInt ∧ offset + (pwSize i).toInt ≤ maxMsgSize := by
  simp only [exCopies, List.forall_mem_cons, List.not_mem_nil, false_implies, implies_true,
    and_true]
  exact Copy.inside_size_iff lower upper

/-- The running sum of `SendEx` is the true sum modulo `2 ^ 16`. -/
theorem headerSize_eq (pwSize : Nat → Int16) (i size remaining : Nat) (bounded : size < 2 ^ 16) :
    headerSize pwSize i size remaining =
      toUInt16 (size + ∑ j ∈ Finset.range remaining, (pwSize (i + j)).toInt) := by
  induction remaining generalizing i size with
  | zero =>
      simp only [headerSize, Finset.range_zero, Finset.sum_empty, Int.add_zero]
      rw [toUInt16_natCast, Nat.mod_eq_of_lt bounded]
  | succ remaining ih =>
      have next_lt : toUInt16 (size + (pwSize i).toInt) < 2 ^ 16 := by
        simp only [toUInt16]
        omega
      rw [headerSize, ih _ _ next_lt, Finset.sum_range_succ']
      simp only [Nat.add_zero, Nat.add_assoc, Nat.add_comm 1, toUInt16]
      omega

/-! ## When the buffer is not overrun -/

/-- The sizes an array of payload lengths adds up to, each with `extra` bytes. -/
def totalSize (extra : Nat) (pwSize : Nat → Int16) (messageCount : Int16) : Int :=
  ∑ i ∈ Finset.range messageCount.toInt.toNat, ((extra : Int) + (pwSize i).toInt)

/-- None of the first `messageCount` payload lengths is negative. -/
def NonnegativeSizes (pwSize : Nat → Int16) (messageCount : Int16) : Prop :=
  ∀ i < messageCount.toInt.toNat, 0 ≤ (pwSize i).toInt

theorem staysInside_gated_iff {stopSocketFlag found : Bool} {call : SendCall} :
    (if stopSocketFlag then .refused else if !found then .refused else call).StaysInside ↔
      stopSocketFlag = true ∨ found = false ∨ call.StaysInside := by
  cases stopSocketFlag <;> cases found <;> simp [SendCall.refused, SendCall.StaysInside]

theorem staysInside_sent_iff {copies : List Copy} {length : Int} :
    (SendCall.mk copies (some length)).StaysInside ↔ ∀ copy ∈ copies, copy.Inside := by
  simp [SendCall.StaysInside]

theorem send_staysInside_iff (stopSocketFlag found : Bool) (data : Nat → UInt8) (length : UInt16)
    (beyond : Nat → UInt8) :
    (send stopSocketFlag found data length beyond).StaysInside ↔
      stopSocketFlag = true ∨ found = false ∨
        length.toNat ≤ maxMsgSize - 4 ∨ maxMsgSize < length.toNat := by
  have bounded := length.toNat_lt
  by_cases tooBig : maxMsgSize < length.toNat
  · simp [send, tooBig, SendCall.refused, SendCall.StaysInside]
  · have header : (Copy.mk 0 4 (wordBytes length.toNat beyond)).Inside := by
      rw [Copy.inside_iff (by omega)]
      right
      decide
    have payload : (Copy.mk 4 (toSizeT length.toNat) data).Inside ↔
        length.toNat ≤ maxMsgSize - 4 := by
      rw [Copy.inside_iff (by omega), toSizeT_of_nonneg (by omega) (by omega), Int.toNat_natCast]
      simp only [maxMsgSize]
      omega
    rw [send, if_neg tooBig, staysInside_gated_iff, staysInside_sent_iff, List.forall_mem_cons,
      List.forall_mem_singleton, payload]
    simp only [header, true_and, tooBig, or_false]

theorem sendMulti_staysInside_iff (stopSocketFlag found : Bool) (messageCount : Int16)
    (ppMsg : Nat → Nat → UInt8) (pwSize : Nat → Int16) :
    (sendMulti stopSocketFlag found messageCount ppMsg pwSize).StaysInside ↔
      stopSocketFlag = true ∨ found = false ∨
        (NonnegativeSizes pwSize messageCount ∧
          totalSize packetHeaderLength pwSize messageCount ≤ maxMsgSize) := by
  have turn (i : Nat) (offset : Int) (lower : 0 ≤ offset) (_ : offset ≤ maxMsgSize) :=
    multiCopies_inside_iff ppMsg pwSize i offset lower
  have inside := @forMessages_inside_iff _ _ (fun i => (pwSize i).toInt) turn
    (fun i => by simp only [packetHeaderLength]; omega) 0 0 messageCount.toInt.toNat
    (by omega) (by simp [maxMsgSize])
  rw [sendMulti, staysInside_gated_iff, staysInside_sent_iff, inside]
  simp only [Nat.zero_add, Int.zero_add, NonnegativeSizes, totalSize]

theorem sendEx_staysInside_iff (stopSocketFlag found : Bool) (messageCount : Int16)
    (ppMsg : Nat → Nat → UInt8) (pwSize : Nat → Int16) (beyond : Nat → UInt8) :
    (sendEx stopSocketFlag found messageCount ppMsg pwSize beyond).StaysInside ↔
      stopSocketFlag = true ∨ found = false ∨
        maxMsgSize < toUInt16 (totalSize 0 pwSize messageCount) ∨
        (NonnegativeSizes pwSize messageCount ∧
          packetHeaderLength + totalSize 0 pwSize messageCount ≤ maxMsgSize) := by
  have sum : headerSize pwSize 0 0 messageCount.toInt.toNat =
      toUInt16 (totalSize 0 pwSize messageCount) := by
    rw [headerSize_eq pwSize 0 0 _ (by omega)]
    simp only [Nat.cast_zero, Int.zero_add, Nat.zero_add, totalSize]
  have inside := @forMessages_inside_iff _ _ (fun i => (pwSize i).toInt)
    (exCopies_inside_iff ppMsg pwSize) (fun i => Int.le_refl _) 0 packetHeaderLength
    messageCount.toInt.toNat (by simp [packetHeaderLength])
    (by simp [packetHeaderLength, maxMsgSize])
  rw [sendEx, staysInside_gated_iff, sum]
  by_cases tooBig : maxMsgSize < toUInt16 (totalSize 0 pwSize messageCount)
  · simp [tooBig, SendCall.StaysInside]
  · have header : (Copy.mk 0 packetHeaderLength
        (wordBytes (toUInt16 (totalSize 0 pwSize messageCount)) beyond)).Inside := by
      rw [Copy.inside_iff (by omega)]
      right
      decide
    rw [if_neg tooBig, staysInside_sent_iff, List.forall_mem_cons, inside]
    simp only [header, tooBig, true_and, false_or]
    simp only [Nat.zero_add, NonnegativeSizes, totalSize, Nat.cast_zero, Int.zero_add]

/-- The three encoders stay inside their buffers exactly when the limit they check, if any, leaves
room for the header, no length is negative and the 16-bit sum of `SendEx` has not wrapped. -/
theorem staysInside_iff (stopSocketFlag found : Bool) (data : Nat → UInt8) (length : UInt16)
    (messageCount : Int16) (ppMsg : Nat → Nat → UInt8) (pwSize : Nat → Int16)
    (beyond : Nat → UInt8) :
    ((send stopSocketFlag found data length beyond).StaysInside ↔
      stopSocketFlag = true ∨ found = false ∨
        length.toNat ≤ maxMsgSize - 4 ∨ maxMsgSize < length.toNat) ∧
      ((sendMulti stopSocketFlag found messageCount ppMsg pwSize).StaysInside ↔
        stopSocketFlag = true ∨ found = false ∨
          (NonnegativeSizes pwSize messageCount ∧
            totalSize packetHeaderLength pwSize messageCount ≤ maxMsgSize)) ∧
      ((sendEx stopSocketFlag found messageCount ppMsg pwSize beyond).StaysInside ↔
        stopSocketFlag = true ∨ found = false ∨
          maxMsgSize < toUInt16 (totalSize 0 pwSize messageCount) ∨
          (NonnegativeSizes pwSize messageCount ∧
            packetHeaderLength + totalSize 0 pwSize messageCount ≤ maxMsgSize)) :=
  ⟨send_staysInside_iff _ _ _ _ _, sendMulti_staysInside_iff _ _ _ _ _,
    sendEx_staysInside_iff _ _ _ _ _ _⟩

/-- A payload of 8180 bytes leaves no room for its header; three payloads of 4000 bytes are copied
unchecked; sizes that add up to 65536 leave zero in the 16-bit sum. -/
theorem overruns :
    ¬(send false true (fun _ => 0) 8180 fun _ => 0).StaysInside ∧
      ¬(sendMulti false true 3 (fun _ _ => 0) fun _ => 4000).StaysInside ∧
      ¬(sendEx false true 3 (fun _ _ => 0) (fun i => if i < 2 then 32767 else 2)
        fun _ => 0).StaysInside := by
  rw [send_staysInside_iff, sendMulti_staysInside_iff, sendEx_staysInside_iff]
  refine ⟨?_, ?_, ?_⟩
  · decide
  · simp only [NonnegativeSizes, totalSize]
    decide
  · simp only [NonnegativeSizes, totalSize]
    decide

end SunPush
