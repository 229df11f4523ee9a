import SunPush.Library.Integer
import SunPush.Library.Memory

/-!
# The cursor buffer

`IOPacket` from `IOPacket.h` and `IOPacket.cpp`, the buffer in which the big
receive path accumulates what has arrived.  The two pointers are offsets into
`m_szBuffer`.  `ReadSkip` throws when fewer bytes are left than it is to skip,
and a write reports `false` when it does not fit; both are `none` here.  What
lies behind `m_szBuffer` is memory of its own.

`TCHAR` is `char`, as the project file sets it, and a read that returns a
pointer is given by the position it points to.
-/

namespace SunPush

open CInteger

/-- `SOCKET_IOBUFFER_SIZE`, the size of `IOPacket::m_szBuffer`. -/
def socketIoBufferSize : Int := 16384 - 48

/-- `IOPacket`: the buffer, the write and read positions, and the four lengths. -/
structure IOPacket where
  szBuffer : Memory
  write : Int
  read : Int
  writeLength : Int
  writeLeavings : Int
  readLength : Int
  readLeavings : Int

namespace IOPacket

def resetReadPos (packet : IOPacket) : IOPacket :=
  { packet with read := 0, readLeavings := packet.writeLength, readLength := 0 }

def resetWritePos (packet : IOPacket) : IOPacket :=
  { packet with write := 0, writeLength := 0, writeLeavings := socketIoBufferSize }

def clear (packet : IOPacket) : IOPacket :=
  let packet := packet.resetWritePos.resetReadPos
  { packet with szBuffer := packet.szBuffer.copy 0 (fun _ => 0) socketIoBufferSize.toNat }

/-- `IOPacket::IOPacket` -/
def construct : IOPacket := clear ⟨Memory.zero, 0, 0, 0, 0, 0, 0⟩

/-- `none` when it throws. -/
def readSkip (packet : IOPacket) (length : Int) : Option IOPacket :=
  if packet.readLeavings - length < 0 then none
  else
    some { packet with
      read := packet.read + length
      readLength := packet.readLength + length
      readLeavings := packet.readLeavings - length }

def writeSkip (packet : IOPacket) (length : Int) : IOPacket :=
  let packet := { packet with
    write := packet.write + length
    writeLength := packet.writeLength + length
    writeLeavings := packet.writeLeavings - length }
  if packet.readLeavings + packet.readLength < packet.writeLength then
    { packet with readLeavings := packet.writeLength - packet.readLength }
  else packet

/-- The position the read started at, and the packet behind it; `none` when it throws. -/
def readCharArray (packet : IOPacket) (length : Int) : Option (Int × IOPacket) :=
  (packet.readSkip length).map fun after => (packet.read, after)

/-- The `size_t` that `memcpy` takes a `long` for. -/
def memcpySize (length : Int) : Nat :=
  if length < 0 then toSizeT length else length.toNat

/-- The packet after the write; `none` when it returns `false`. -/
def writeCharArray (packet : IOPacket) (data : Memory) (length : Int) : Option IOPacket :=
  if length ≤ packet.writeLeavings then
    some (writeSkip { packet with
      szBuffer := packet.szBuffer.copy packet.write (fun i => data i) (memcpySize length) } length)
  else none

/-- Cut the buffer off; `none` when it returns `false`. -/
def resize (packet : IOPacket) (newAllSize : Int) : Option IOPacket :=
  if socketIoBufferSize < newAllSize then none
  else
    let packet :=
      if newAllSize < packet.writeLength then
        { packet with writeLength := newAllSize, write := newAllSize }
      else packet
    let packet := { packet with writeLeavings := socketIoBufferSize - newAllSize }
    let packet :=
      if newAllSize < packet.readLength then
        { packet with read := newAllSize, readLength := newAllSize }
      else packet
    some { packet with readLeavings := newAllSize - packet.readLength }

/-! ## Typed reads -/

/-- `length*sizeof(T)` as a `long`. -/
def byteCount (length : Int) (width : Nat) : Int := toLong (length * width)

/-- Read a value of `width` bytes. -/
def readScalar (packet : IOPacket) (width : Nat) : Option (BitVec (8 * width) × IOPacket) :=
  (packet.readSkip width).map fun after =>
    (.ofNat _ (LittleEndian.decode (packet.szBuffer.read packet.read width)), after)

def readChar (packet : IOPacket) : Option (BitVec 8 × IOPacket) := packet.readScalar 1

def readShort (packet : IOPacket) : Option (BitVec 16 × IOPacket) := packet.readScalar 2

def readLong (packet : IOPacket) : Option (BitVec 32 × IOPacket) := packet.readScalar 4

def readLongLong (packet : IOPacket) : Option (BitVec 64 × IOPacket) := packet.readScalar 8

/-- The bytes are fetched before `ReadSkip` checks that they are there. -/
def readPointer (packet : IOPacket) : Option (BitVec 32 × IOPacket) := packet.readScalar 4

/-- Read an array of values of `width` bytes. -/
def readArray (packet : IOPacket) (length : Int) (width : Nat) : Option (Int × IOPacket) :=
  packet.readCharArray (byteCount length width)

def readShortArray (packet : IOPacket) (length : Int) : Option (Int × IOPacket) :=
  packet.readArray length 2

def readLongArray (packet : IOPacket) (length : Int) : Option (Int × IOPacket) :=
  packet.readArray length 4

def readLongLongArray (packet : IOPacket) (length : Int) : Option (Int × IOPacket) :=
  packet.readArray length 8

/-- The position of the string, `none` when it throws; and the packet behind the call, for it may
throw after `ReadShort` has moved the cursor. -/
def readString (packet : IOPacket) : Option Int × IOPacket :=
  match packet.readShort with
  | none => (none, packet)
  | some (length, packet) =>
      if packet.readLeavings < length.toInt then (none, packet)
      else
        match packet.readSkip length.toInt with
        | none => (none, packet)
        | some after => (some packet.read, after)

/-! ## Typed writes -/

/-- Store the bytes and skip them. -/
def store (packet : IOPacket) (bytes : List UInt8) : IOPacket :=
  writeSkip { packet with szBuffer := packet.szBuffer.write packet.write bytes } bytes.length

/-- `WriteChar` compares with a `size_t`, the others with an `int`. -/
def writeChar (packet : IOPacket) (data : BitVec 8) : Option IOPacket :=
  if 1 ≤ toSizeT packet.writeLeavings then some (packet.store (LittleEndian.encode 1 data.toNat))
  else none

/-- Write a value of `width` bytes. -/
def writeScalar (packet : IOPacket) (width : Nat) (data : BitVec (8 * width)) :
    Option IOPacket :=
  if width ≤ packet.writeLeavings then
    some (packet.store (LittleEndian.encode width data.toNat))
  else none

def writeShort (packet : IOPacket) (data : BitVec 16) : Option IOPacket :=
  packet.writeScalar 2 data

def writeLong (packet : IOPacket) (data : BitVec 32) : Option IOPacket :=
  packet.writeScalar 4 data

def writeLongLong (packet : IOPacket) (data : BitVec 64) : Option IOPacket :=
  packet.writeScalar 8 data

def writePointer (packet : IOPacket) (ptr : BitVec 32) : Option IOPacket := packet.writeLong ptr

/-- Write an array of values of `width` bytes, which lie at the start of `data`. -/
def writeArray (packet : IOPacket) (data : Memory) (length : Int) (width : Nat) :
    Option IOPacket :=
  packet.writeCharArray data (byteCount length width)

def writeShortArray (packet : IOPacket) (data : Memory) (length : Int) : Option IOPacket :=
  packet.writeArray data length 2

def writeLongArray (packet : IOPacket) (data : Memory) (length : Int) : Option IOPacket :=
  packet.writeArray data length 4

def writeLongLongArray (packet : IOPacket) (data : Memory) (length : Int) : Option IOPacket :=
  packet.writeArray data length 8

end IOPacket

/-- A string in memory, without the character that ends it. -/
structure CString where
  chars : List UInt8
  noNul : 0 ∉ chars
  addressable : chars.length + 1 < 2 ^ 32

/-- The characters with the one that ends them. -/
def CString.bytes (string : CString) : List UInt8 := string.chars ++ [0]

namespace IOPacket

/-- `false` for a null pointer.  What `WriteShort` returns is not looked at.  The `size_t` of the
length is that of the string again. -/
def writeString (packet : IOPacket) : Option CString → Option IOPacket
  | none => none
  | some data =>
      let length := toLong data.bytes.length
      if length ≤ packet.writeLeavings then
        let packet := (packet.writeShort (.ofInt 16 length)).getD packet
        some (writeSkip { packet with
          szBuffer := packet.szBuffer.write packet.write data.bytes } length)
      else none

/-- Overwrite a value of `width` bytes; `none` when it returns `false`. -/
def reWrite (packet : IOPacket) (width : Nat) (offset : Int) (data : BitVec (8 * width)) :
    Option IOPacket :=
  if toLong (packet.writeLength - width) < offset then none
  else
    some { packet with
      szBuffer := packet.szBuffer.write offset (LittleEndian.encode width data.toNat) }

def reWriteChar (packet : IOPacket) (offset : Int) (data : BitVec 8) : Option IOPacket :=
  packet.reWrite 1 offset data

def reWriteShort (packet : IOPacket) (offset : Int) (data : BitVec 16) : Option IOPacket :=
  packet.reWrite 2 offset data

def reWriteLong (packet : IOPacket) (offset : Int) (data : BitVec 32) : Option IOPacket :=
  packet.reWrite 4 offset data

def reWriteLongLong (packet : IOPacket) (offset : Int) (data : BitVec 64) : Option IOPacket :=
  packet.reWrite 8 offset data

/-! ## Lengths and contents -/

@[simp]
theorem readLeavings_resetReadPos (packet : IOPacket) :
    packet.resetReadPos.readLeavings = packet.writeLength :=
  rfl

@[simp]
theorem writeLength_clear (packet : IOPacket) : packet.clear.writeLength = 0 := rfl

@[simp]
theorem writeLength_construct : construct.writeLength = 0 := rfl

@[simp]
theorem writeLength_writeSkip (packet : IOPacket) (length : Int) :
    (packet.writeSkip length).writeLength = packet.writeLength + length := by
  simp only [writeSkip]
  split <;> rfl

/-- A read takes exactly its length from what is left, and never more than that. -/
theorem readLeavings_readCharArray {packet after : IOPacket} {length start : Int}
    (reads : packet.readCharArray length = some (start, after)) :
    after.readLeavings = packet.readLeavings - length ∧ 0 ≤ after.readLeavings := by
  simp only [readCharArray, Option.map_eq_some_iff, Prod.mk.injEq] at reads
  rcases reads with ⟨skipped, skips, _, rfl⟩
  by_cases short : packet.readLeavings - length < 0
  · rw [readSkip, if_pos short] at skips
    contradiction
  · rw [readSkip, if_neg short, Option.some.injEq] at skips
    subst skips
    exact ⟨rfl, Int.not_lt.mp short⟩

/-- A write that is accepted adds its length to what has been written. -/
theorem writeLength_writeCharArray {packet after : IOPacket} {data : Memory} {length : Int}
    (writes : packet.writeCharArray data length = some after) :
    after.writeLength = packet.writeLength + length := by
  by_cases fits : length ≤ packet.writeLeavings
  · rw [writeCharArray, if_pos fits, Option.some.injEq] at writes
    subst writes
    exact writeLength_writeSkip _ length
  · rw [writeCharArray, if_neg fits] at writes
    contradiction

/-- The written bytes are found from the write position on. -/
theorem read_szBuffer_writeCharArray {packet after : IOPacket} {data : Memory} {length : Nat}
    (writes : packet.writeCharArray data length = some after) :
    after.szBuffer.read packet.write length = data.read 0 length := by
  by_cases fits : (length : Int) ≤ packet.writeLeavings
  · rw [writeCharArray, if_pos fits, Option.some.injEq] at writes
    subst writes
    have kept (filled : IOPacket) : (filled.writeSkip length).szBuffer = filled.szBuffer := by
      simp only [writeSkip]
      split <;> rfl
    have size : memcpySize (length : Int) = length := by
      rw [memcpySize, if_neg (by omega), Int.toNat_natCast]
    rw [kept, size, Memory.read_copy_self]
    simp [Memory.read]
  · rw [writeCharArray, if_neg fits] at writes
    contradiction

/-- After a write, what has been written and not been read is left to read. -/
theorem readLeavings_writeSkip (packet : IOPacket) (length : Int) :
    (packet.writeSkip length).readLeavings =
      max packet.readLeavings (packet.writeLength + length - packet.readLength) := by
  by_cases behind : packet.readLeavings + packet.readLength < packet.writeLength + length
  · simp only [writeSkip, if_pos behind]
    omega
  · simp only [writeSkip, if_neg behind]
    omega

/-- Into a new packet every length up to its size can be written, and all of it can be read. -/
theorem writeCharArray_construct (data : Memory) {length : Nat}
    (fits : (length : Int) ≤ socketIoBufferSize) :
    ∃ after, construct.writeCharArray data length = some after ∧ after.readLeavings = length := by
  have room : (length : Int) ≤ construct.writeLeavings := fits
  refine ⟨_, if_pos room, ?_⟩
  rw [readLeavings_writeSkip]
  change max (0 : Int) (0 + length - 0) = length
  omega

end IOPacket

end SunPush
