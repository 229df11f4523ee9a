import SunPush.Library.Memory
import SunPush.Library.Integer
import Mathlib.Tactic.IntervalCases

/-!
# Message objects and packet headers

`CNetMsg` from `NetMsg.h` and `NetMsg.cpp`, and the part of `PACKET_HEADER`
the socket layer reads.  The buffer and the two 16-bit fields of `CNetMsg` form
a union, so the fields are the first four bytes of the buffer.
-/

namespace SunPush

/-- `_MAX_MSGSIZE`, the size of `CNetMsg::m_bufMsg`. -/
def maxMsgSize : Nat := 8192 - 12

def packetHeaderLength : Nat := 4

/-- `CNetMsg`: the bytes of `m_bufMsg`, which share their storage with `m_unMsgSize` and
`m_unMsgType`, and `m_dwMsgSize`. -/
structure NetMsg where
  bufMsg : Memory
  msgSize : Nat
  deriving Inhabited

namespace NetMsg

def getMaxSize : Nat := maxMsgSize

/-- Store `m_unMsgSize = 0` and `m_unMsgType = -1`. -/
def clearHeader (msg : NetMsg) : NetMsg :=
  { msg with bufMsg := msg.bufMsg.write 0 [0, 0, 0xFF, 0xFF] }

/-- `CNetMsg::CNetMsg` in a release build: only the two 16-bit fields are set. -/
def construct (raw : NetMsg) : NetMsg :=
  raw.clearHeader

/-- `CNetMsg::Init`: zero the whole buffer, then set the two 16-bit fields. -/
def init (msg : NetMsg) : NetMsg :=
  clearHeader { msg with bufMsg := msg.bufMsg.copy 0 (fun _ => 0) maxMsgSize }

/-- `pHeader->m_nDataLength` for `pHeader = (PACKET_HEADER*)GetBuf()`. -/
def dataLength (msg : NetMsg) : Nat :=
  LittleEndian.decode (msg.bufMsg.read 0 4)

/-- The bytes a completed receive has placed at `offset` of the buffer. -/
def place (msg : NetMsg) (offset : Int) (bytes : List UInt8) : NetMsg :=
  { msg with bufMsg := msg.bufMsg.write offset bytes }

/-- The first `length` bytes of the buffer. -/
def message (msg : NetMsg) (length : Int) : List UInt8 :=
  msg.bufMsg.read 0 length.toNat

end NetMsg

/-- `GetPoolMessage` in the build without the packet pool: `new CNetMsg`, then `Init`.  `Init` sets
every byte of the buffer, and the receive path stores `m_dwMsgSize` before anything reads it, so
what the heap block held is not represented. -/
def getPoolMessage : NetMsg :=
  NetMsg.init (NetMsg.construct default)

/-- The buffer of a fresh message: zeros, but for the `-1` in `m_unMsgType`. -/
theorem getPoolMessage_bufMsg (i : Nat) :
    getPoolMessage.bufMsg i = if i = 2 ∨ i = 3 then 0xFF else 0 := by
  have stored : getPoolMessage.bufMsg =
      ((NetMsg.construct default).bufMsg.copy 0 (fun _ => 0) maxMsgSize).write 0
        [0, 0, 0xFF, 0xFF] := rfl
  by_cases header : i < 4
  · interval_cases i <;> rfl
  · rw [stored, Memory.write_outside (by simp; omega), if_neg (by omega)]
    by_cases inside : i < maxMsgSize
    · have zeroed := @Memory.copy_inside (NetMsg.construct default).bufMsg 0 (fun _ => 0)
        maxMsgSize i inside
      rwa [Int.zero_add] at zeroed
    · rw [Memory.copy_outside (by omega)]
      exact Memory.write_outside (by simp; omega)

end SunPush
