import SunPush.Socket.Header
import SunPush.Receiver.Framing

/-!
# Batches

`SendMulti` builds one frame for each payload, `SendEx` one frame for all of
them.  Both copy a header of four bytes out of a 16-bit variable, and `SendEx`
checks its sum without the header and in 16 bits.  Their calls are compared with
what `Send` hands to the session when the bytes behind its parameter are zero,
so that its headers carry the length in 32 bits.
-/

namespace SunPush

open CInteger

/-- The bytes a copy moves. -/
def Copy.bytes (copy : Copy) : List UInt8 :=
  (List.range copy.count).map copy.source

/-- The number of bytes a list of copies moves. -/
def totalCount : List Copy → Nat
  | [] => 0
  | copy :: copies => copy.count + totalCount copies

/-- Each copy starts where the one before it ends. -/
def Consecutive : Int → List Copy → Prop
  | _, [] => True
  | offset, copy :: copies => copy.offset = offset ∧ Consecutive (offset + copy.count) copies

/-- What a call hands to `Session::Send`, unless it returns `FALSE`. -/
def SendCall.handed (call : SendCall) (stack : Memory) : Option (List UInt8) :=
  call.sent.map fun length => (call.sendBuf stack).read 0 length.toNat

/-- One payload of a batch. -/
def payloadAt (ppMsg : Nat → Nat → UInt8) (pwSize : Nat → Int16) (i : Nat) : List UInt8 :=
  (List.range (pwSize i).toInt.toNat).map (ppMsg i)

/-- The payloads of a batch. -/
def payloads (messageCount : Int16) (ppMsg : Nat → Nat → UInt8) (pwSize : Nat → Int16) :
    List (List UInt8) :=
  (List.range messageCount.toInt.toNat).map (payloadAt ppMsg pwSize)

/-- `Send` of a list of bytes, with zeros behind the 16-bit parameter. -/
def sendExactly (stopSocketFlag found : Bool) (data : List UInt8) : SendCall :=
  send stopSocketFlag found (fun i => data.getD i 0) (UInt16.ofNat data.length) fun _ => 0

/-! ## Consecutive copies -/

theorem totalCount_append (first rest : List Copy) :
    totalCount (first ++ rest) = totalCount first + totalCount rest := by
  induction first with
  | nil => simp [totalCount]
  | cons copy copies ih => simp [totalCount, ih, Nat.add_assoc]

theorem consecutive_append {offset : Int} {first rest : List Copy} :
    Consecutive offset (first ++ rest) ↔
      Consecutive offset first ∧ Consecutive (offset + totalCount first) rest := by
  induction first generalizing offset with
  | nil => simp [Consecutive, totalCount]
  | cons copy copies ih => simp [Consecutive, totalCount, ih, and_assoc, Int.add_assoc]

theorem sendBuf_before {offset address : Int} {copies : List Copy} {sent : Option Int}
    (consecutive : Consecutive offset copies) (before : address < offset) (stack : Memory) :
    (SendCall.mk copies sent).sendBuf stack address = stack address := by
  induction copies generalizing offset stack with
  | nil => rfl
  | cons copy copies ih =>
      rcases consecutive with ⟨starts, rest⟩
      have later := ih rest (by omega) (stack.copy copy.offset copy.source copy.count)
      simp only [SendCall.sendBuf, List.foldl_cons] at later ⊢
      rw [later]
      apply Memory.copy_outside
      omega

/-- Consecutive copies leave what they move, one behind the other. -/
theorem read_sendBuf_of_consecutive {offset : Int} {copies : List Copy} {sent : Option Int}
    (consecutive : Consecutive offset copies) (stack : Memory) :
    ((SendCall.mk copies sent).sendBuf stack).read offset (totalCount copies) =
      copies.flatMap Copy.bytes := by
  induction copies generalizing offset stack with
  | nil => simp [totalCount]
  | cons copy copies ih =>
      rcases consecutive with ⟨starts, rest⟩
      have later := ih rest (stack.copy copy.offset copy.source copy.count)
      have kept : ((SendCall.mk copies sent).sendBuf
          (stack.copy copy.offset copy.source copy.count)).read offset copy.count = copy.bytes := by
        rw [Copy.bytes, ← Memory.read_copy_self stack offset, starts]
        apply Memory.read_congr
        intro i i_lt
        exact sendBuf_before rest (by omega) _
      rw [totalCount, Memory.read_add, List.flatMap_cons, ← later, ← kept]
      rfl

/-- A call whose copies fill its buffer from the start up to the length it passes on. -/
theorem handed_of_consecutive {copies : List Copy} (consecutive : Consecutive 0 copies)
    (stack : Memory) :
    (SendCall.mk copies (some (totalCount copies))).handed stack =
      some (copies.flatMap Copy.bytes) := by
  simp only [SendCall.handed, Option.map_some, Int.toNat_natCast]
  rw [read_sendBuf_of_consecutive consecutive]

theorem handed_gated (stopSocketFlag found : Bool) (call : SendCall) (stack : Memory) :
    (if stopSocketFlag then .refused else if !found then .refused else call).handed stack =
      if stopSocketFlag = true ∨ found = false then none else call.handed stack := by
  cases stopSocketFlag with
  | true => rfl
  | false =>
      cases found with
      | true => rfl
      | false => rfl

/-! ## One frame -/

/-- `Send` of at most `maxMsgSize - 4` bytes hands over one frame. -/
theorem handed_send {length : UInt16} (fits : length.toNat + 4 ≤ maxMsgSize)
    (stopSocketFlag found : Bool) (data beyond : Nat → UInt8) (stack : Memory) :
    (send stopSocketFlag found data length beyond).handed stack =
      if stopSocketFlag = true ∨ found = false then none
      else some (Outgoing.frame data length beyond) := by
  have accepted : ¬maxMsgSize < length.toNat := by omega
  have consecutive : Consecutive 0
      [⟨0, 4, wordBytes length.toNat beyond⟩, ⟨4, toSizeT length.toNat, data⟩] :=
    ⟨rfl, rfl, trivial⟩
  have size : toSizeT (length.toNat : Int) = length.toNat := by
    simp only [maxMsgSize] at fits
    rw [toSizeT_of_nonneg (by omega) (by omega), Int.toNat_natCast]
  have total : ((length.toNat : Int) + 4) = (totalCount
      [⟨0, 4, wordBytes length.toNat beyond⟩, ⟨4, toSizeT length.toNat, data⟩] : Nat) := by
    simp only [totalCount, size]
    omega
  rw [send, if_neg accepted, handed_gated, total, handed_of_consecutive consecutive]
  simp [Copy.bytes, Outgoing.frame, size]

/-- The four bytes of a header carry the length exactly when those behind the 16-bit variable are
zero. -/
theorem map_wordBytes_eq_iff {size : Nat} (bounded : size < 2 ^ 16) (beyond : Nat → UInt8) :
    (List.range 4).map (wordBytes size beyond) = LittleEndian.encode 4 size ↔
      beyond 0 = 0 ∧ beyond 1 = 0 := by
  have third : UInt8.ofNat (size / 256 / 256) = 0 := by
    rw [show size / 256 / 256 = 0 by omega]
    rfl
  have fourth : UInt8.ofNat (size / 256 / 256 / 256) = 0 := by
    rw [show size / 256 / 256 / 256 = 0 by omega]
    rfl
  have word : (List.range 4).map (wordBytes size beyond) =
      [UInt8.ofNat size, UInt8.ofNat (size / 256), beyond 0, beyond 1] := rfl
  rw [word]
  simp [LittleEndian.encode, third, fourth]

theorem frame_eq_iff {data : List UInt8} (bounded : data.length < 2 ^ 16) (beyond : Nat → UInt8) :
    Outgoing.frame (fun i => data.getD i 0) (UInt16.ofNat data.length) beyond = frame data ↔
      beyond 0 = 0 ∧ beyond 1 = 0 := by
  have length : (UInt16.ofNat data.length).toNat = data.length := by
    rw [UInt16.toNat_ofNat']
    exact Nat.mod_eq_of_lt bounded
  have payload : (List.range data.length).map (fun i => data.getD i 0) = data := by
    apply List.ext_getElem (by simp)
    intro i i_lt within
    simp [List.getD_eq_getElem?_getD, List.getElem?_eq_getElem within]
  rw [Outgoing.frame, frame, length, payload, List.append_left_inj]
  exact map_wordBytes_eq_iff bounded beyond

theorem handed_sendExactly {data : List UInt8} (fits : data.length + 4 ≤ maxMsgSize)
    (stopSocketFlag found : Bool) (stack : Memory) :
    (sendExactly stopSocketFlag found data).handed stack =
      if stopSocketFlag = true ∨ found = false then none else some (frame data) := by
  have bounded : data.length < 2 ^ 16 := by
    simp only [maxMsgSize] at fits
    omega
  have length : (UInt16.ofNat data.length).toNat = data.length := by
    rw [UInt16.toNat_ofNat']
    exact Nat.mod_eq_of_lt bounded
  rw [sendExactly, handed_send (by rw [length]; exact fits)]
  rw [(frame_eq_iff bounded fun _ => 0).mpr ⟨rfl, rfl⟩]

/-! ## The loops -/

/-- The turns of a loop copy consecutive blocks, from its first offset up to its last. -/
theorem forMessages_consecutive {copies : Nat → Int → List Copy} {advance : Nat → Int}
    {block : Nat → List UInt8} {i : Nat} {offset : Int} {remaining : Nat}
    (turn : ∀ j < remaining, ∀ start, Consecutive start (copies (i + j) start) ∧
      (totalCount (copies (i + j) start) : Int) = advance (i + j) ∧
        (copies (i + j) start).flatMap Copy.bytes = block (i + j)) :
    Consecutive offset (forMessages copies advance i offset remaining).1 ∧
      (forMessages copies advance i offset remaining).2 =
        offset + totalCount (forMessages copies advance i offset remaining).1 ∧
      (forMessages copies advance i offset remaining).1.flatMap Copy.bytes =
        (List.range remaining).flatMap fun j => block (i + j) := by
  induction remaining generalizing i offset with
  | zero =>
      refine ⟨trivial, ?_, rfl⟩
      simp [forMessages, totalCount]
  | succ remaining ih =>
      rcases turn 0 (by omega) offset with ⟨first, size, bytes⟩
      rw [Nat.add_zero] at first size bytes
      have rest := @ih (i + 1) (offset + advance i) (by
        intro j j_lt start
        have later := turn (j + 1) (by omega) start
        rwa [show i + (j + 1) = i + 1 + j by omega] at later)
      rcases rest with ⟨consecutive, final, blocks⟩
      simp only [forMessages]
      refine ⟨?_, ?_, ?_⟩
      · rw [consecutive_append, size]
        exact ⟨first, consecutive⟩
      · rw [final, totalCount_append]
        omega
      · rw [List.flatMap_append, bytes, blocks, List.range_succ_eq_map, List.flatMap_cons,
          List.flatMap_map, Nat.add_zero]
        congr 1
        apply List.flatMap_congr
        intro j _
        rw [Nat.succ_eq_add_one, show i + (j + 1) = i + 1 + j by omega]

theorem toSizeT_size {size : Int16} (nonneg : 0 ≤ size.toInt) :
    toSizeT size.toInt = size.toInt.toNat := by
  have bounded := size.toInt_lt
  exact toSizeT_of_nonneg nonneg (by omega)

theorem length_payloadAt (ppMsg : Nat → Nat → UInt8) (pwSize : Nat → Int16) (i : Nat) :
    (payloadAt ppMsg pwSize i).length = (pwSize i).toInt.toNat := by
  simp [payloadAt]

theorem handed_sendMulti {messageCount : Int16} {pwSize : Nat → Int16}
    (nonneg : NonnegativeSizes pwSize messageCount) (stopSocketFlag found : Bool)
    (ppMsg : Nat → Nat → UInt8) (stack : Memory) :
    (sendMulti stopSocketFlag found messageCount ppMsg pwSize).handed stack =
      if stopSocketFlag = true ∨ found = false then none
      else some ((List.range messageCount.toInt.toNat).flatMap fun i =>
        (List.range 4).map (sizeBytes pwSize i) ++ payloadAt ppMsg pwSize i) := by
  have loop := @forMessages_consecutive (multiCopies ppMsg pwSize)
    (fun i => packetHeaderLength + (pwSize i).toInt)
    (fun i => (List.range 4).map (sizeBytes pwSize i) ++ payloadAt ppMsg pwSize i) 0 0
    messageCount.toInt.toNat (by
      intro i i_lt start
      have size := nonneg i i_lt
      rw [Nat.zero_add]
      refine ⟨⟨rfl, rfl, trivial⟩, ?_, ?_⟩
      · simp only [multiCopies, totalCount, toSizeT_size size]
        omega
      · simp [multiCopies, Copy.bytes, toSizeT_size size, packetHeaderLength, payloadAt])
  rcases loop with ⟨consecutive, final, bytes⟩
  rw [sendMulti, handed_gated]
  simp only [final, Int.zero_add]
  rw [handed_of_consecutive consecutive, bytes]
  simp only [Nat.zero_add]

theorem length_flatten_payloads {messageCount : Int16} {pwSize : Nat → Int16}
    (nonneg : NonnegativeSizes pwSize messageCount) (ppMsg : Nat → Nat → UInt8) :
    ((payloads messageCount ppMsg pwSize).flatten.length : Int) =
      totalSize 0 pwSize messageCount := by
  rw [totalSize, payloads, List.length_flatten, List.map_map]
  rw [NonnegativeSizes] at nonneg
  generalize messageCount.toInt.toNat = count at nonneg
  induction count with
  | zero => rfl
  | succ count ih =>
      have last := nonneg count (Nat.lt_succ_self count)
      have before := ih fun i i_lt => nonneg i (Nat.lt_succ_of_lt i_lt)
      rw [List.range_succ, List.map_append, List.sum_append, Finset.sum_range_succ, ← before]
      simp only [List.map_cons, List.map_nil, List.sum_cons, List.sum_nil, Function.comp_apply,
        length_payloadAt]
      omega

theorem handed_sendEx {messageCount : Int16} {pwSize : Nat → Int16}
    (nonneg : NonnegativeSizes pwSize messageCount) (stopSocketFlag found : Bool)
    (ppMsg : Nat → Nat → UInt8) (beyond : Nat → UInt8) (stack : Memory) :
    (sendEx stopSocketFlag found messageCount ppMsg pwSize beyond).handed stack =
      if stopSocketFlag = true ∨ found = false then none
      else if maxMsgSize < toUInt16 (totalSize 0 pwSize messageCount) then none
      else some ((List.range 4).map
          (wordBytes (toUInt16 (totalSize 0 pwSize messageCount)) beyond) ++
        (payloads messageCount ppMsg pwSize).flatten) := by
  have sum : headerSize pwSize 0 0 messageCount.toInt.toNat =
      toUInt16 (totalSize 0 pwSize messageCount) := by
    rw [headerSize_eq pwSize 0 0 _ (by omega)]
    simp only [Nat.cast_zero, Int.zero_add, Nat.zero_add, totalSize]
  have loop := @forMessages_consecutive (exCopies ppMsg pwSize)
    (fun i => (pwSize i).toInt) (payloadAt ppMsg pwSize) 0 packetHeaderLength
    messageCount.toInt.toNat (by
      intro i i_lt start
      have size := nonneg i i_lt
      rw [Nat.zero_add]
      refine ⟨⟨rfl, trivial⟩, ?_, ?_⟩
      · simp only [exCopies, totalCount, toSizeT_size size]
        omega
      · simp [exCopies, Copy.bytes, toSizeT_size size, payloadAt])
  rcases loop with ⟨consecutive, final, bytes⟩
  rw [sendEx, handed_gated, sum]
  by_cases tooBig : maxMsgSize < toUInt16 (totalSize 0 pwSize messageCount)
  · simp only [if_pos tooBig]
    rfl
  · have whole : Consecutive 0 (⟨0, packetHeaderLength,
        wordBytes (toUInt16 (totalSize 0 pwSize messageCount)) beyond⟩ ::
          (forMessages (exCopies ppMsg pwSize) (fun i => (pwSize i).toInt) 0 packetHeaderLength
            messageCount.toInt.toNat).1) := by
      refine ⟨rfl, ?_⟩
      rw [Int.zero_add]
      exact consecutive
    have handed := handed_of_consecutive whole stack
    simp only [if_neg tooBig]
    rw [final, ← Nat.cast_add]
    rw [totalCount, List.flatMap_cons, bytes] at handed
    simp only [Nat.zero_add] at handed
    rw [handed, payloads, List.flatMap_def]
    rfl

/-! ## Batches against single frames -/

/-- The header of a turn carries the length of its payload exactly when the next element of the
array, from which it takes its upper half, is zero. -/
theorem map_sizeBytes_eq_iff {pwSize : Nat → Int16} {i : Nat} (nonneg : 0 ≤ (pwSize i).toInt) :
    (List.range 4).map (sizeBytes pwSize i) =
        LittleEndian.encode 4 (pwSize i).toInt.toNat ↔ pwSize (i + 1) = 0 := by
  have upper := (pwSize i).toInt_lt
  have lowest := (pwSize (i + 1)).le_toInt
  have highest := (pwSize (i + 1)).toInt_lt
  have own : toUInt16 (pwSize i).toInt = (pwSize i).toInt.toNat := by
    simp only [toUInt16]
    omega
  have halves : (List.range 4).map (sizeBytes pwSize i) =
      LittleEndian.encode 2 (pwSize i).toInt.toNat ++
        LittleEndian.encode 2 (toUInt16 (pwSize (i + 1)).toInt) := by
    rw [← own]
    rfl
  have whole : LittleEndian.encode 4 (pwSize i).toInt.toNat =
      LittleEndian.encode 2 (pwSize i).toInt.toNat ++ LittleEndian.encode 2 0 := by
    simp only [LittleEndian.encode, List.cons_append, List.nil_append]
    rw [show (pwSize i).toInt.toNat / 256 / 256 = 0 by omega]
  rw [halves, whole, List.append_cancel_left_eq]
  constructor
  · intro same
    have decoded := congrArg LittleEndian.decode same
    rw [LittleEndian.decode_encode, LittleEndian.decode_encode] at decoded
    apply Int16.toInt_inj.mp
    change (pwSize (i + 1)).toInt = 0
    simp only [toUInt16] at decoded
    omega
  · intro none
    rw [none]
    rfl

/-- Lists of blocks of the same lengths agree when all blocks do. -/
theorem flatMap_eq_iff {left right : Nat → List UInt8} {indices : List Nat}
    (lengths : ∀ i ∈ indices, (left i).length = (right i).length) :
    indices.flatMap left = indices.flatMap right ↔ ∀ i ∈ indices, left i = right i := by
  induction indices with
  | nil => simp
  | cons first rest ih =>
      have later := ih fun i i_mem => lengths i (List.mem_cons_of_mem first i_mem)
      rw [List.flatMap_cons, List.flatMap_cons, List.forall_mem_cons, ← later]
      constructor
      · intro same
        exact List.append_inj same (lengths first List.mem_cons_self)
      · rintro ⟨head, tail⟩
        rw [head, tail]

/-- `SendMulti` hands over what `Send` of the payloads one by one does. -/
def MultiMatches (stopSocketFlag found : Bool) (messageCount : Int16)
    (ppMsg : Nat → Nat → UInt8) (pwSize : Nat → Int16) (stack : Memory) : Prop :=
  ((sendMulti stopSocketFlag found messageCount ppMsg pwSize).handed stack).getD [] =
    (payloads messageCount ppMsg pwSize).flatMap fun payload =>
      ((sendExactly stopSocketFlag found payload).handed stack).getD []

/-- `SendEx` hands over what `Send` of the joined payloads does, and refuses them if they do not fit
with a header. -/
def ExMatches (stopSocketFlag found : Bool) (messageCount : Int16) (ppMsg : Nat → Nat → UInt8)
    (pwSize : Nat → Int16) (beyond : Nat → UInt8) (stack : Memory) : Prop :=
  (sendEx stopSocketFlag found messageCount ppMsg pwSize beyond).handed stack =
    if (payloads messageCount ppMsg pwSize).flatten.length + 4 ≤ maxMsgSize then
      (sendExactly stopSocketFlag found (payloads messageCount ppMsg pwSize).flatten).handed stack
    else none

theorem single_le_totalSize {messageCount : Int16} {pwSize : Nat → Int16}
    (nonneg : NonnegativeSizes pwSize messageCount) {i : Nat}
    (i_lt : i < messageCount.toInt.toNat) (extra : Nat) :
    extra + (pwSize i).toInt ≤ totalSize extra pwSize messageCount := by
  have terms : ∀ j ∈ Finset.range messageCount.toInt.toNat,
      (0 : Int) ≤ extra + (pwSize j).toInt := by
    intro j j_mem
    have size := nonneg j (Finset.mem_range.mp j_mem)
    omega
  exact Finset.single_le_sum terms (Finset.mem_range.mpr i_lt)

/-- What `Send` hands over for the payloads one by one. -/
theorem flatMap_sendExactly {messageCount : Int16} {pwSize : Nat → Int16}
    (nonneg : NonnegativeSizes pwSize messageCount)
    (fits : totalSize packetHeaderLength pwSize messageCount ≤ maxMsgSize)
    (stopSocketFlag found : Bool) (ppMsg : Nat → Nat → UInt8) (stack : Memory) :
    ((payloads messageCount ppMsg pwSize).flatMap fun payload =>
        ((sendExactly stopSocketFlag found payload).handed stack).getD []) =
      if stopSocketFlag = true ∨ found = false then []
      else (List.range messageCount.toInt.toNat).flatMap fun i =>
        frame (payloadAt ppMsg pwSize i) := by
  have each : ∀ i ∈ List.range messageCount.toInt.toNat,
      ((sendExactly stopSocketFlag found (payloadAt ppMsg pwSize i)).handed stack).getD [] =
        if stopSocketFlag = true ∨ found = false then [] else frame (payloadAt ppMsg pwSize i) := by
    intro i i_mem
    have i_lt := List.mem_range.mp i_mem
    have bound := single_le_totalSize nonneg i_lt packetHeaderLength
    have size := nonneg i i_lt
    have single : (payloadAt ppMsg pwSize i).length + 4 ≤ maxMsgSize := by
      rw [length_payloadAt]
      simp only [packetHeaderLength] at bound fits
      omega
    rw [handed_sendExactly single]
    split <;> rfl
  rw [payloads, List.flatMap_map, List.flatMap_congr each]
  split
  · simp
  · rfl

theorem multiMatches_iff {messageCount : Int16} {pwSize : Nat → Int16}
    (nonneg : NonnegativeSizes pwSize messageCount)
    (fits : totalSize packetHeaderLength pwSize messageCount ≤ maxMsgSize)
    (stopSocketFlag found : Bool) (ppMsg : Nat → Nat → UInt8) (stack : Memory) :
    MultiMatches stopSocketFlag found messageCount ppMsg pwSize stack ↔
      (stopSocketFlag = true ∨ found = false) ∨
        ∀ i < messageCount.toInt.toNat, pwSize (i + 1) = 0 := by
  rw [MultiMatches, handed_sendMulti nonneg, flatMap_sendExactly nonneg fits]
  by_cases refused : stopSocketFlag = true ∨ found = false
  · rw [if_pos refused, if_pos refused]
    exact iff_of_true rfl (.inl refused)
  · have lengths : ∀ i ∈ List.range messageCount.toInt.toNat,
        ((List.range 4).map (sizeBytes pwSize i) ++ payloadAt ppMsg pwSize i).length =
          (frame (payloadAt ppMsg pwSize i)).length := by
      intro i _
      simp
    rw [if_neg refused, if_neg refused, Option.getD_some, flatMap_eq_iff lengths,
      or_iff_right refused]
    apply forall_congr'
    intro i
    rw [List.mem_range]
    apply imp_congr_right
    intro i_lt
    rw [frame, List.append_left_inj, length_payloadAt]
    exact map_sizeBytes_eq_iff (nonneg i i_lt)

theorem exMatches_iff {messageCount : Int16} {pwSize : Nat → Int16}
    (nonneg : NonnegativeSizes pwSize messageCount) (stopSocketFlag found : Bool)
    (ppMsg : Nat → Nat → UInt8) (beyond : Nat → UInt8) (stack : Memory) :
    ExMatches stopSocketFlag found messageCount ppMsg pwSize beyond stack ↔
      (stopSocketFlag = true ∨ found = false) ∨
        if totalSize 0 pwSize messageCount + 4 ≤ maxMsgSize then beyond 0 = 0 ∧ beyond 1 = 0
        else maxMsgSize < toUInt16 (totalSize 0 pwSize messageCount) := by
  have length := length_flatten_payloads nonneg ppMsg
  rw [ExMatches, handed_sendEx nonneg]
  generalize (payloads messageCount ppMsg pwSize).flatten = joined at length ⊢
  rw [← length, toUInt16_natCast]
  by_cases refused : stopSocketFlag = true ∨ found = false
  · rw [if_pos refused]
    refine iff_of_true ?_ (.inl refused)
    split
    · rename_i fits
      rw [handed_sendExactly fits, if_pos refused]
    · rfl
  · rw [if_neg refused, or_iff_right refused]
    by_cases fits : joined.length + 4 ≤ maxMsgSize
    · have bounded : joined.length < 2 ^ 16 := by
        simp only [maxMsgSize] at fits
        omega
      have accepted : ¬maxMsgSize < joined.length % 2 ^ 16 := by
        rw [Nat.mod_eq_of_lt bounded]
        omega
      have fits_int : (joined.length : Int) + 4 ≤ maxMsgSize := by exact_mod_cast fits
      rw [if_pos fits, if_neg accepted, if_pos fits_int, handed_sendExactly fits,
        if_neg refused, Option.some.injEq, frame, List.append_left_inj, Nat.mod_eq_of_lt bounded]
      exact map_wordBytes_eq_iff bounded beyond
    · have fits_int : ¬(joined.length : Int) + 4 ≤ maxMsgSize := by exact_mod_cast fits
      rw [if_neg fits, if_neg fits_int]
      by_cases tooBig : maxMsgSize < joined.length % 2 ^ 16
      · rw [if_pos tooBig]
        exact iff_of_true rfl tooBig
      · rw [if_neg tooBig]
        exact iff_of_false (by simp) tooBig

/-- When the batch senders equal the plain one: `SendMulti` if every size but the first and the word
behind the array are zero, `SendEx` if the bytes behind its 16-bit sum are zero, or if the sum is
too large without a header and in 16 bits as well. -/
theorem batch_iff {messageCount : Int16} {pwSize : Nat → Int16}
    (nonneg : NonnegativeSizes pwSize messageCount) (stopSocketFlag found : Bool)
    (ppMsg : Nat → Nat → UInt8) (beyond : Nat → UInt8) (stack : Memory) :
    (totalSize packetHeaderLength pwSize messageCount ≤ maxMsgSize →
      (MultiMatches stopSocketFlag found messageCount ppMsg pwSize stack ↔
        (stopSocketFlag = true ∨ found = false) ∨
          ∀ i < messageCount.toInt.toNat, pwSize (i + 1) = 0)) ∧
      (ExMatches stopSocketFlag found messageCount ppMsg pwSize beyond stack ↔
        (stopSocketFlag = true ∨ found = false) ∨
          if totalSize 0 pwSize messageCount + 4 ≤ maxMsgSize then beyond 0 = 0 ∧ beyond 1 = 0
          else maxMsgSize < toUInt16 (totalSize 0 pwSize messageCount)) :=
  ⟨fun fits => multiMatches_iff nonneg fits _ _ _ _, exMatches_iff nonneg _ _ _ _ _⟩

/-- Two payloads of one byte each, with a zero behind the array. -/
def twoSizes (i : Nat) : Int16 := if i < 2 then 1 else 0

theorem nonnegative_twoSizes : NonnegativeSizes twoSizes 2 := by
  rw [NonnegativeSizes]
  decide

theorem batch_iff_two_payloads :
    (totalSize packetHeaderLength twoSizes 2 ≤ maxMsgSize →
      (MultiMatches false true 2 (fun _ _ => 7) twoSizes Memory.zero ↔
        (false = true ∨ true = false) ∨
          ∀ i < (2 : Int16).toInt.toNat, twoSizes (i + 1) = 0)) ∧
      (ExMatches false true 2 (fun _ _ => 7) twoSizes (fun _ => 0) Memory.zero ↔
        (false = true ∨ true = false) ∨
          if totalSize 0 twoSizes 2 + 4 ≤ maxMsgSize then (0 : UInt8) = 0 ∧ (0 : UInt8) = 0
          else maxMsgSize < toUInt16 (totalSize 0 twoSizes 2)) :=
  batch_iff nonnegative_twoSizes false true (fun _ _ => 7) (fun _ => 0) Memory.zero

/-- The header of the first of two payloads holds the size of the second in its upper half, and
8177 bytes are accepted by `SendEx` although no buffer takes them with their header. -/
theorem not_batch_two_payloads :
    totalSize packetHeaderLength twoSizes 2 ≤ maxMsgSize ∧
      ¬MultiMatches false true 2 (fun _ _ => 7) twoSizes Memory.zero ∧
      ¬ExMatches false true 1 (fun _ _ => 7) (fun _ => 8177) (fun _ => 0) Memory.zero := by
  have fits : totalSize packetHeaderLength twoSizes 2 ≤ maxMsgSize := by decide
  have single : NonnegativeSizes (fun _ => 8177) 1 := by
    rw [NonnegativeSizes]
    decide
  refine ⟨fits, ?_, ?_⟩
  · rw [multiMatches_iff nonnegative_twoSizes fits]
    decide
  · rw [exMatches_iff single]
    decide

end SunPush
