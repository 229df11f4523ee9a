import SunPush.Socket.Batch

/-!
# Sending from pooled messages

`Send` and `SendMulti` of the builds with `_USE_PACKET_MEMORY_POOL_SEND`, which
build their frames in a `CNetMsg` instead of a buffer on the stack.  `SendMulti`
passes the length it has counted to the session; `Send` passes `GetSize()`, the
low 16 bits of a field that neither the constructor nor `Init` sets.
-/

namespace SunPush

open CInteger

/-- `GetPoolMessage` for a message in memory that held `raw`.  With `_USE_PACKET_MEMORY_POOL` the
pool only constructs the message, otherwise `Init` follows. -/
def obtainMessage (usePacketMemoryPool : Bool) (raw : NetMsg) : NetMsg :=
  if usePacketMemoryPool then raw.construct else raw.construct.init

/-- `GetSize()`: `(USHORT)m_dwMsgSize` -/
def NetMsg.getSize (msg : NetMsg) : Nat := toUInt16 msg.msgSize

/-- What a pooled call passes to `Session::Send`: the message and the length. -/
abbrev PooledCall : Type := Option (NetMsg × Int)

/-- The bytes the session is asked to write. -/
def PooledCall.handed (call : PooledCall) : Option (List UInt8) :=
  Option.map (fun passed => passed.1.bufMsg.read 0 passed.2.toNat) call

/-- `Send` with `_USE_PACKET_MEMORY_POOL_SEND`. -/
def sendPooled (usePacketMemoryPool stopSocketFlag found : Bool) (raw : NetMsg)
    (data : Nat → UInt8) (length : UInt16) (beyond : Nat → UInt8) : PooledCall :=
  if maxMsgSize < length.toNat then none
  else if stopSocketFlag then none
  else if !found then none
  else
    let msg := obtainMessage usePacketMemoryPool raw
    let msg := { msg with
      bufMsg := msg.bufMsg.copy 0 (wordBytes length.toNat beyond) packetHeaderLength }
    let msg := { msg with
      bufMsg := msg.bufMsg.copy packetHeaderLength data (toSizeT length.toNat) }
    some (msg, msg.getSize)

/-- `SendMulti` with `_USE_PACKET_MEMORY_POOL_SEND`. -/
def sendMultiPooled (usePacketMemoryPool stopSocketFlag found : Bool) (raw : NetMsg)
    (messageCount : Int16) (ppMsg : Nat → Nat → UInt8) (pwSize : Nat → Int16) : PooledCall :=
  if stopSocketFlag then none
  else if !found then none
  else
    let msg := obtainMessage usePacketMemoryPool raw
    let loop := forMessages (multiCopies ppMsg pwSize)
      (fun i => packetHeaderLength + (pwSize i).toInt) 0 0 messageCount.toInt.toNat
    some ({ msg with bufMsg := (SendCall.mk loop.1 none).sendBuf msg.bufMsg }, loop.2)

/-- No function on the way to a pooled message sets its size. -/
theorem msgSize_obtainMessage (usePacketMemoryPool : Bool) (raw : NetMsg) :
    (obtainMessage usePacketMemoryPool raw).msgSize = raw.msgSize := by
  cases usePacketMemoryPool with
  | true => rfl
  | false => rfl

/-- The frame is in the message, but as much of the message is written as its size field says. -/
theorem handed_sendPooled {length : UInt16} (fits : length.toNat + 4 ≤ maxMsgSize)
    (usePacketMemoryPool stopSocketFlag found : Bool) (raw : NetMsg)
    (data beyond : Nat → UInt8) :
    ∃ written : Memory, written.read 0 (4 + length.toNat) = Outgoing.frame data length beyond ∧
      (sendPooled usePacketMemoryPool stopSocketFlag found raw data length beyond).handed =
        if stopSocketFlag = true ∨ found = false then none
        else some (written.read 0 raw.getSize) := by
  have accepted : ¬maxMsgSize < length.toNat := by omega
  have size : toSizeT (length.toNat : Int) = length.toNat := by
    simp only [maxMsgSize] at fits
    rw [toSizeT_of_nonneg (by omega) (by omega), Int.toNat_natCast]
  refine ⟨((obtainMessage usePacketMemoryPool raw).bufMsg.copy 0
    (wordBytes length.toNat beyond) 4).copy 4 data length.toNat, ?_, ?_⟩
  · rw [Memory.read_add, Memory.read_copy_of_disjoint (by omega), Memory.read_copy_self]
    change _ ++ Memory.read _ 4 _ = _
    rw [Memory.read_copy_self]
    rfl
  · rw [sendPooled, if_neg accepted]
    simp only [size]
    cases stopSocketFlag with
    | true => rfl
    | false =>
        cases found with
        | false => rfl
        | true =>
            simp only [PooledCall.handed, NetMsg.getSize, msgSize_obtainMessage, Bool.not_true,
              Bool.false_eq_true, if_false, Option.map_some, Int.toNat_natCast]
            rfl

theorem frame_beyond_iff (data : Nat → UInt8) (length : UInt16) (left right : Nat → UInt8) :
    Outgoing.frame data length left = Outgoing.frame data length right ↔
      left 0 = right 0 ∧ left 1 = right 1 := by
  have header (beyond : Nat → UInt8) : (List.range 4).map (wordBytes length.toNat beyond) =
      [UInt8.ofNat length.toNat, UInt8.ofNat (length.toNat / 256), beyond 0, beyond 1] := rfl
  rw [Outgoing.frame, Outgoing.frame, List.append_left_inj, header, header]
  simp

/-- The two builds of `Send` write the same bytes exactly when the size in the pooled message is the
frame's by chance, and the bytes behind the 16-bit parameter are the same. -/
theorem handed_sendPooled_eq_iff {length : UInt16} (fits : length.toNat + 4 ≤ maxMsgSize)
    (usePacketMemoryPool stopSocketFlag found : Bool) (raw : NetMsg)
    (data pooledBeyond beyond : Nat → UInt8) (stack : Memory) :
    (sendPooled usePacketMemoryPool stopSocketFlag found raw data length pooledBeyond).handed =
        (send stopSocketFlag found data length beyond).handed stack ↔
      (stopSocketFlag = true ∨ found = false) ∨
        (raw.getSize = length.toNat + 4 ∧ pooledBeyond 0 = beyond 0 ∧
          pooledBeyond 1 = beyond 1) := by
  rcases handed_sendPooled fits usePacketMemoryPool stopSocketFlag found raw data pooledBeyond with
    ⟨written, holds, handed⟩
  rw [handed, handed_send fits]
  by_cases refused : stopSocketFlag = true ∨ found = false
  · rw [if_pos refused, if_pos refused]
    exact iff_of_true rfl (.inl refused)
  · rw [if_neg refused, if_neg refused, Option.some.injEq, or_iff_right refused,
      ← frame_beyond_iff data length, ← holds]
    constructor
    · intro same
      have sizes := congrArg List.length same
      rw [Memory.length_read, Outgoing.frame, List.length_append, List.length_map,
        List.length_range, List.length_map, List.length_range] at sizes
      have size : raw.getSize = 4 + length.toNat := sizes
      rw [size] at same
      exact ⟨by omega, same⟩
    · rintro ⟨size, same⟩
      rw [show raw.getSize = 4 + length.toNat by omega]
      exact same

/-- Whatever the pooled message held, the two builds of `SendMulti` write the same bytes. -/
theorem handed_sendMultiPooled {messageCount : Int16} {pwSize : Nat → Int16}
    (nonneg : NonnegativeSizes pwSize messageCount)
    (usePacketMemoryPool stopSocketFlag found : Bool) (raw : NetMsg)
    (ppMsg : Nat → Nat → UInt8) (stack : Memory) :
    (sendMultiPooled usePacketMemoryPool stopSocketFlag found raw messageCount ppMsg
        pwSize).handed =
      (sendMulti stopSocketFlag found messageCount ppMsg pwSize).handed stack := by
  rw [handed_sendMulti nonneg, ← handed_sendMulti nonneg stopSocketFlag found ppMsg
    (obtainMessage usePacketMemoryPool raw).bufMsg]
  cases stopSocketFlag with
  | true => rfl
  | false =>
      cases found with
      | false => rfl
      | true => rfl

/-- When the pooled builds write what the others do. -/
theorem pooled_iff {length : UInt16} (fits : length.toNat + 4 ≤ maxMsgSize)
    {messageCount : Int16} {pwSize : Nat → Int16}
    (nonneg : NonnegativeSizes pwSize messageCount)
    (usePacketMemoryPool stopSocketFlag found : Bool) (raw : NetMsg)
    (data pooledBeyond beyond : Nat → UInt8) (ppMsg : Nat → Nat → UInt8) (stack : Memory) :
    ((sendPooled usePacketMemoryPool stopSocketFlag found raw data length pooledBeyond).handed =
        (send stopSocketFlag found data length beyond).handed stack ↔
      (stopSocketFlag = true ∨ found = false) ∨
        (raw.getSize = length.toNat + 4 ∧ pooledBeyond 0 = beyond 0 ∧
          pooledBeyond 1 = beyond 1)) ∧
      (sendMultiPooled usePacketMemoryPool stopSocketFlag found raw messageCount ppMsg
          pwSize).handed =
        (sendMulti stopSocketFlag found messageCount ppMsg pwSize).handed stack :=
  ⟨handed_sendPooled_eq_iff fits _ _ _ _ _ _ _ _, handed_sendMultiPooled nonneg _ _ _ _ _ _⟩

/-- A message in memory that held zeros. -/
def zeroMessage : NetMsg := ⟨Memory.zero, 0⟩

theorem pooled_iff_two_bytes :
    ((sendPooled true false true zeroMessage (fun _ => 7) 2 fun _ => 0).handed =
        (send false true (fun _ => 7) 2 fun _ => 0).handed Memory.zero ↔
      (false = true ∨ true = false) ∨
        (zeroMessage.getSize = (2 : UInt16).toNat + 4 ∧ (0 : UInt8) = 0 ∧ (0 : UInt8) = 0)) ∧
      (sendMultiPooled true false true zeroMessage 2 (fun _ _ => 7) twoSizes).handed =
        (sendMulti false true 2 (fun _ _ => 7) twoSizes).handed Memory.zero :=
  pooled_iff (by decide) nonnegative_twoSizes true false true zeroMessage (fun _ => 7)
    (fun _ => 0) (fun _ => 0) (fun _ _ => 7) Memory.zero

/-- The frame of two bytes is written by one build, and nothing at all by the other. -/
theorem not_pooled_two_bytes :
    (sendPooled true false true zeroMessage (fun _ => 7) 2 fun _ => 0).handed = some [] ∧
      (sendPooled true false true zeroMessage (fun _ => 7) 2 fun _ => 0).handed ≠
        (send false true (fun _ => 7) 2 fun _ => 0).handed Memory.zero := by
  decide

end SunPush
