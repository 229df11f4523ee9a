import SunPush.Socket.NetMsg

/-!
# The small-buffer receive handler

`Session::_receive_sp` and the part of `Session::handle_read_sp` that follows
its status check, from `Session.cpp`.  The handler is given as a function of the
session's two counters, the message buffer and the byte count it is told; its
result names everything it does: the counters it leaves, the arguments of the
`OnReadComplete` call, the receive it posts and whether it calls `handle_exit`.

The byte count is the one `_receive_sp` binds, the *requested* length.  The
error code and the number of bytes that really arrived do not occur: the code
never reads them.
-/

namespace SunPush

open CInteger

/-- `m_nSmallBufferModeReadLeave` and `m_nSmallBufferModeReadOffset`. -/
structure ReadState where
  readLeave : Int
  readOffset : Int
  deriving DecidableEq, Repr

/-- The arguments of `_receive_sp`: the buffer, where in it the received bytes go, and the length
that is both requested from the socket and bound as the handler's `bytes_transferred`. -/
structure Receive where
  msg : NetMsg
  recvOffset : Int
  recvLength : Int

/-- What one call of `handle_read_sp` does after its status check. -/
structure ReadOutcome where
  /-- The counters when the handler returns. -/
  state : ReadState
  /-- The message and the length passed to `OnReadComplete`, if it is called. -/
  deliver : Option (NetMsg × Int)
  /-- The receive posted by `_receive_sp`, if any. -/
  receive : Option Receive
  /-- Whether `handle_exit` is called. -/
  exit : Bool

namespace ReadState

/-- The counters `Session::start` sets, and every completed message restores: a header is
expected next. -/
def expectHeader : ReadState where
  readLeave := -1
  readOffset := 0

end ReadState

/-- The receive that asks for a header in a fresh message. -/
def receiveHeader : Receive where
  msg := getPoolMessage
  recvOffset := 0
  recvLength := packetHeaderLength

namespace ReadState

/-- `Session::handle_read_sp` after the check of `m_emSocketStatus`.  `wouldBlock` says whether
`WSAGetLastError()` is `WSAEWOULDBLOCK`.  `GetPoolMessage` never yields a null pointer in this
build, so the two branches that report exhausted message memory are absent. -/
def handleReadSp (state : ReadState) (msgBuffer : NetMsg) (bytesTransferred : Nat)
    (wouldBlock : Bool) : ReadOutcome :=
  if bytesTransferred = 0 ∨ bytesTransferred = 2 ^ 32 - 1 ∧ wouldBlock = false then
    { state, deliver := none, receive := none, exit := true }
  else if state.readLeave = -1 ∧ bytesTransferred = packetHeaderLength then
    let messageLength := toUInt16 msgBuffer.dataLength
    if NetMsg.getMaxSize < messageLength then
      -- "Discard1": the message does not fit, its first block is received only to be dropped
      { state := ⟨messageLength, 0⟩, deliver := none, exit := false
        receive := some ⟨msgBuffer, 0, NetMsg.getMaxSize⟩ }
    else if 0 < messageLength then
      { state := ⟨messageLength, 0⟩, deliver := none, exit := false
        receive := some ⟨msgBuffer, 0, messageLength⟩ }
    else
      { state := expectHeader, deliver := none, exit := false, receive := some receiveHeader }
  else
    let leave := toLong (state.readLeave - bytesTransferred)
    let offset := toLong (state.readOffset + bytesTransferred)
    if leave = 0 then
      -- "Discard3": the last block of a message that does not fit
      { state := expectHeader, exit := false, receive := some receiveHeader
        deliver :=
          if (NetMsg.getMaxSize : Int) < offset + leave then none
          else some ({ msgBuffer with msgSize := toSizeT offset }, offset) }
    else if (NetMsg.getMaxSize : Int) < offset + leave then
      -- "Discard2"
      { state := ⟨leave, offset⟩, deliver := none, exit := false
        receive := some ⟨msgBuffer, 0, min leave NetMsg.getMaxSize⟩ }
    else if 0 < leave then
      { state := ⟨leave, offset⟩, deliver := none, exit := false
        receive := some ⟨msgBuffer, offset, leave⟩ }
    else
      { state := ⟨leave, offset⟩, deliver := none, receive := none, exit := false }

/-- How the counters and the outstanding receive of an open session fit together: either a header
is expected, or `size` bytes of the current message's remaining `readLeave` are requested, and the
message has at most 65535 bytes in all.  Only a message that does not fit is received in several
blocks, each at the start of the buffer. -/
inductive Window : ReadState → Receive → Prop where
  | header (msg : NetMsg) : Window expectHeader ⟨msg, 0, packetHeaderLength⟩
  | body (msg : NetMsg) {length : Nat} (positive : 0 < length) (fits : length ≤ maxMsgSize) :
      Window ⟨length, 0⟩ ⟨msg, 0, length⟩
  | discard (msg : NetMsg) {leave offset : Nat} (positive : 0 < leave)
      (oversized : maxMsgSize < offset + leave) (bounded : offset + leave < 2 ^ 16) :
      Window ⟨leave, offset⟩ ⟨msg, 0, min (leave : Int) maxMsgSize⟩

/-- Every posted receive asks for at least one byte and lies inside the buffer. -/
theorem Window.bounds {state : ReadState} {receive : Receive} (window : Window state receive) :
    receive.recvOffset = 0 ∧ 1 ≤ receive.recvLength ∧ receive.recvLength ≤ maxMsgSize := by
  cases window with
  | header msg => simp [packetHeaderLength, maxMsgSize]
  | body msg positive fits =>
      simp only [maxMsgSize] at fits ⊢
      refine ⟨trivial, ?_, ?_⟩ <;> omega
  | discard msg positive oversized bounded =>
      simp only [maxMsgSize]
      refine ⟨trivial, ?_, ?_⟩ <;> omega

/-- The handler is told exactly the requested length. -/
theorem Window.toSizeT_eq {state : ReadState} {receive : Receive} (window : Window state receive) :
    toSizeT receive.recvLength = receive.recvLength.toNat := by
  have bounds := window.bounds
  simp only [maxMsgSize] at bounds
  exact toSizeT_of_nonneg (by omega) (by omega)

/-! ## What the handler does in each of the receiver's states -/

theorem handleReadSp_emptyHeader {msg : NetMsg} (wouldBlock : Bool)
    (empty : toUInt16 msg.dataLength = 0) :
    expectHeader.handleReadSp msg packetHeaderLength wouldBlock =
      { state := expectHeader, deliver := none, receive := some receiveHeader, exit := false } := by
  simp [handleReadSp, expectHeader, packetHeaderLength, empty, NetMsg.getMaxSize, maxMsgSize]

theorem handleReadSp_bodyHeader {msg : NetMsg} (wouldBlock : Bool)
    (positive : 0 < toUInt16 msg.dataLength) (fits : toUInt16 msg.dataLength ≤ maxMsgSize) :
    expectHeader.handleReadSp msg packetHeaderLength wouldBlock =
      { state := ⟨toUInt16 msg.dataLength, 0⟩, deliver := none
        receive := some ⟨msg, 0, toUInt16 msg.dataLength⟩, exit := false } := by
  have notOversized : ¬NetMsg.getMaxSize < toUInt16 msg.dataLength := by
    simpa [NetMsg.getMaxSize] using fits
  simp [handleReadSp, expectHeader, packetHeaderLength, notOversized, positive]

theorem handleReadSp_discardHeader {msg : NetMsg} (wouldBlock : Bool)
    (oversized : maxMsgSize < toUInt16 msg.dataLength) :
    expectHeader.handleReadSp msg packetHeaderLength wouldBlock =
      { state := ⟨toUInt16 msg.dataLength, 0⟩, deliver := none
        receive := some ⟨msg, 0, maxMsgSize⟩, exit := false } := by
  simp [handleReadSp, expectHeader, packetHeaderLength, NetMsg.getMaxSize, oversized]

theorem handleReadSp_body {msg : NetMsg} {length : Nat} (wouldBlock : Bool)
    (positive : 0 < length) (fits : length ≤ maxMsgSize) :
    (ReadState.mk length 0).handleReadSp msg length wouldBlock =
      { state := expectHeader, deliver := some ({ msg with msgSize := length }, (length : Int))
        receive := some receiveHeader, exit := false } := by
  simp only [maxMsgSize] at fits
  have told : ¬(length = 0 ∨ length = 2 ^ 32 - 1 ∧ wouldBlock = false) := by omega
  have notHeader : ¬((length : Int) = -1 ∧ length = packetHeaderLength) := by omega
  have consumed : toLong ((length : Int) - length) = 0 := by simp [toLong]
  have received : toLong (0 + (length : Int)) = length := by
    rw [Int.zero_add]
    exact toLong_of_mem_range (by omega) (by omega)
  have kept : ¬((NetMsg.getMaxSize : Int) < (length : Int) + 0) := by
    simp only [NetMsg.getMaxSize, maxMsgSize]
    omega
  have size : toSizeT (length : Int) = length := by
    rw [toSizeT_of_nonneg (by omega) (by omega), Int.toNat_natCast]
  simp only [handleReadSp, if_neg told, if_neg notHeader, consumed, received, if_neg kept, size,
    if_true]

theorem handleReadSp_lastDiscard {msg : NetMsg} {leave offset : Nat} (wouldBlock : Bool)
    (positive : 0 < leave) (last : leave ≤ maxMsgSize) (oversized : maxMsgSize < offset + leave)
    (bounded : offset + leave < 2 ^ 16) :
    (ReadState.mk leave offset).handleReadSp msg leave wouldBlock =
      { state := expectHeader, deliver := none, receive := some receiveHeader, exit := false } := by
  simp only [maxMsgSize] at last oversized
  have told : ¬(leave = 0 ∨ leave = 2 ^ 32 - 1 ∧ wouldBlock = false) := by omega
  have notHeader : ¬((leave : Int) = -1 ∧ leave = packetHeaderLength) := by omega
  have consumed : toLong ((leave : Int) - leave) = 0 := by simp [toLong]
  have received : toLong ((offset : Int) + leave) = offset + leave :=
    toLong_of_mem_range (by omega) (by omega)
  have dropped : (NetMsg.getMaxSize : Int) < (offset : Int) + leave + 0 := by
    simp only [NetMsg.getMaxSize, maxMsgSize]
    omega
  simp only [handleReadSp, if_neg told, if_neg notHeader, consumed, received, if_pos dropped,
    if_true]

theorem handleReadSp_nextDiscard {msg : NetMsg} {leave offset : Nat} (wouldBlock : Bool)
    (more : maxMsgSize < leave) (bounded : offset + leave < 2 ^ 16) :
    (ReadState.mk leave offset).handleReadSp msg maxMsgSize wouldBlock =
      { state := ⟨(leave - maxMsgSize : Nat), (offset + maxMsgSize : Nat)⟩, deliver := none
        receive := some ⟨msg, 0, min ((leave - maxMsgSize : Nat) : Int) maxMsgSize⟩
        exit := false } := by
  have told : ¬(maxMsgSize = 0 ∨ maxMsgSize = 2 ^ 32 - 1 ∧ wouldBlock = false) := by
    simp [maxMsgSize]
  have notHeader : ¬((leave : Int) = -1 ∧ maxMsgSize = packetHeaderLength) := by omega
  have left : toLong ((leave : Int) - maxMsgSize) = (leave - maxMsgSize : Nat) := by
    simp only [maxMsgSize] at more ⊢
    rw [toLong_of_mem_range (by omega) (by omega)]
    omega
  have received : toLong ((offset : Int) + maxMsgSize) = (offset + maxMsgSize : Nat) := by
    simp only [maxMsgSize] at more ⊢
    rw [toLong_of_mem_range (by omega) (by omega)]
    omega
  have remains : ¬(((leave - maxMsgSize : Nat) : Int) = 0) := by omega
  have dropped : (maxMsgSize : Int) <
      ((offset + maxMsgSize : Nat) : Int) + (leave - maxMsgSize : Nat) := by omega
  simp only [handleReadSp, NetMsg.getMaxSize, if_neg told, if_neg notHeader, left, received,
    if_neg remains, if_pos dropped]

/-- From a receive and the counters it fits, the handler never calls `handle_exit` and always posts
another receive, which fits the counters it leaves. -/
theorem handleReadSp_window {state : ReadState} {receive : Receive} (window : Window state receive)
    (msg : NetMsg) (wouldBlock : Bool) :
    (state.handleReadSp msg (toSizeT receive.recvLength) wouldBlock).exit = false ∧
      ∃ next, (state.handleReadSp msg (toSizeT receive.recvLength) wouldBlock).receive = some next ∧
        Window (state.handleReadSp msg (toSizeT receive.recvLength) wouldBlock).state next := by
  rw [window.toSizeT_eq]
  cases window with
  | header _ =>
      rw [Int.toNat_natCast]
      have declared_lt : toUInt16 msg.dataLength < 2 ^ 16 := by
        rw [toUInt16_natCast]
        omega
      rcases Nat.eq_zero_or_pos (toUInt16 msg.dataLength) with empty | positive
      · rw [handleReadSp_emptyHeader wouldBlock empty]
        exact ⟨rfl, _, rfl, .header _⟩
      · rcases Nat.lt_or_ge maxMsgSize (toUInt16 msg.dataLength) with oversized | fits
        · rw [handleReadSp_discardHeader wouldBlock oversized]
          have window := @Window.discard msg (toUInt16 msg.dataLength) 0 positive (by omega)
            (by omega)
          rw [min_eq_right (by omega)] at window
          exact ⟨rfl, _, rfl, window⟩
        · rw [handleReadSp_bodyHeader wouldBlock positive fits]
          exact ⟨rfl, _, rfl, .body _ positive fits⟩
  | body _ positive fits =>
      rw [Int.toNat_natCast, handleReadSp_body wouldBlock positive fits]
      exact ⟨rfl, _, rfl, .header _⟩
  | @discard _ leave offset positive oversized bounded =>
      rcases Nat.lt_or_ge maxMsgSize leave with more | last
      · have block : (min (leave : Int) maxMsgSize).toNat = maxMsgSize := by omega
        rw [block, handleReadSp_nextDiscard wouldBlock more bounded]
        exact ⟨rfl, _, rfl, .discard _ (by omega) (by omega) (by omega)⟩
      · have block : (min (leave : Int) maxMsgSize).toNat = leave := by omega
        rw [block, handleReadSp_lastDiscard wouldBlock positive last oversized bounded]
        exact ⟨rfl, _, rfl, .header _⟩

/-- A message that is delivered is not empty and fits. -/
theorem length_of_deliver {state : ReadState} {receive : Receive} (window : Window state receive)
    {buffer msg : NetMsg} {wouldBlock : Bool} {length : Int}
    (delivers : (state.handleReadSp buffer (toSizeT receive.recvLength) wouldBlock).deliver =
      some (msg, length)) : 1 ≤ length ∧ length ≤ maxMsgSize := by
  rw [window.toSizeT_eq] at delivers
  cases window with
  | header _ =>
      rw [Int.toNat_natCast] at delivers
      rcases Nat.eq_zero_or_pos (toUInt16 buffer.dataLength) with empty | positive
      · rw [handleReadSp_emptyHeader wouldBlock empty] at delivers
        contradiction
      · rcases Nat.lt_or_ge maxMsgSize (toUInt16 buffer.dataLength) with oversized | fits
        · rw [handleReadSp_discardHeader wouldBlock oversized] at delivers
          contradiction
        · rw [handleReadSp_bodyHeader wouldBlock positive fits] at delivers
          contradiction
  | body _ positive fits =>
      rw [Int.toNat_natCast, handleReadSp_body wouldBlock positive fits, Option.some.injEq,
        Prod.mk.injEq] at delivers
      have same := delivers.2
      omega
  | @discard _ leave offset positive oversized bounded =>
      rcases Nat.lt_or_ge maxMsgSize leave with more | last
      · have block : (min (leave : Int) maxMsgSize).toNat = maxMsgSize := by omega
        rw [block, handleReadSp_nextDiscard wouldBlock more bounded] at delivers
        contradiction
      · have block : (min (leave : Int) maxMsgSize).toNat = leave := by omega
        rw [block, handleReadSp_lastDiscard wouldBlock positive last oversized bounded] at delivers
        contradiction

end ReadState

end SunPush
