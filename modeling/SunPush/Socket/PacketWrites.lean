import SunPush.Socket.PacketCursors

/-!
# What a write leaves in the packet buffer

A write that returns `false` changes nothing.  One that returns `true` appends
the whole encoding of its value, or stores it over bytes that were written
before, with three exceptions: `WriteString` checks the room for the characters
and not for the length in front of them, an overwrite takes a negative offset,
and an array may be larger than a `long` can say.
-/

namespace SunPush

open CInteger

namespace IOPacket

/-- The packet behind whose contents the bytes have been put. -/
def appended (packet : IOPacket) (bytes : List UInt8) : IOPacket :=
  { packet with
    szBuffer := packet.szBuffer.write packet.writeLength bytes
    write := packet.write + bytes.length
    writeLength := packet.writeLength + bytes.length
    writeLeavings := packet.writeLeavings - bytes.length
    readLeavings := packet.readLeavings + bytes.length }

/-- The packet some of whose bytes have been replaced. -/
def overwritten (packet : IOPacket) (offset : Int) (bytes : List UInt8) : IOPacket :=
  { packet with szBuffer := packet.szBuffer.write offset bytes }

theorem appended_appended (packet : IOPacket) (first rest : List UInt8) :
    (packet.appended first).appended rest = packet.appended (first ++ rest) := by
  simp only [appended, Memory.write_append, List.length_append, Int.natCast_add, Int.add_assoc,
    Int.sub_sub]

/-- The calls that write. -/
inductive WriteCall where
  | writeTyped (type : ScalarType) (data : type.Val)
  | writeTypedArray (type : ScalarType) (data : Memory) (length : Count)
  | writeString (data : Option CString)
  | reWriteTyped (type : ScalarType) (offset : Int) (data : type.Val)

def reWriteTyped (packet : IOPacket) (offset : Int) :
    (type : ScalarType) → type.Val → Option IOPacket
  | .char, data => packet.reWriteChar offset data
  | .short, data => packet.reWriteShort offset data
  | .long, data => packet.reWriteLong offset data
  | .longLong, data => packet.reWriteLongLong offset data

def performWrite (packet : IOPacket) : WriteCall → Option IOPacket
  | .writeTyped type data => packet.writeTyped type data
  | .writeTypedArray type data length => packet.writeTypedArray data length type
  | .writeString data => packet.writeString data
  | .reWriteTyped type offset data => packet.reWriteTyped offset type data

/-- What the call returns, and the packet after it. -/
def outcome (packet : IOPacket) (call : WriteCall) : Bool × IOPacket :=
  match packet.performWrite call with
  | none => (false, packet)
  | some after => (true, after)

/-- The bytes that stand for a value: the array's elements, or for a string the number of its bytes
and then these. -/
def WriteCall.encoding : WriteCall → List UInt8
  | .writeTyped type data => LittleEndian.encode type.size data.toNat
  | .writeTypedArray type data length => data.read 0 (length * type.size)
  | .writeString none => []
  | .writeString (some data) => LittleEndian.encode 2 data.bytes.length ++ data.bytes
  | .reWriteTyped type _ data => LittleEndian.encode type.size data.toNat

/-- The encoding of the value has been appended within the buffer, or stored over written bytes. -/
def Stores (packet : IOPacket) (call : WriteCall) (after : IOPacket) : Prop :=
  match call with
  | .reWriteTyped _ offset _ =>
      0 ≤ offset ∧ offset + call.encoding.length ≤ packet.writeLength ∧
        after = packet.overwritten offset call.encoding
  | _ =>
      packet.writeLength + call.encoding.length ≤ socketIoBufferSize ∧
        after = packet.appended call.encoding

/-- No byte outside the buffer has been touched. -/
def StaysInside (packet after : IOPacket) : Prop :=
  ∀ address, address < 0 ∨ socketIoBufferSize ≤ address →
    after.szBuffer address = packet.szBuffer address

/-- The call returns `false` and changes nothing, or returns `true` and has stored its value. -/
def AllOrNothing (packet : IOPacket) (call : WriteCall) : Prop :=
  packet.outcome call = (false, packet) ∨
    ∃ after, packet.outcome call = (true, after) ∧ packet.Stores call after ∧
      packet.StaysInside after

/-- There is room for an array unless it is refused, for a string and its length unless it is
refused, and a value is overwritten at no negative offset unless that is refused. -/
def WritesWhole (packet : IOPacket) : WriteCall → Prop
  | .writeTyped _ _ => True
  | .writeTypedArray type _ length =>
      packet.writeLeavings < byteCount length type.size ∨
        (length * type.size : Nat) ≤ packet.writeLeavings
  | .writeString none => True
  | .writeString (some data) =>
      packet.writeLeavings < toLong data.bytes.length ∨
        data.bytes.length + 2 ≤ packet.writeLeavings
  | .reWriteTyped type offset _ => 0 ≤ offset ∨ packet.writeLength - type.size < offset

/-! ## Writing within the room there is -/

namespace Consistent

variable {packet : IOPacket}

theorem writeSkip_eq (consistent : packet.Consistent) {length : Int} (nonneg : 0 ≤ length) :
    packet.writeSkip length =
      { packet with
        write := packet.write + length
        writeLength := packet.writeLength + length
        writeLeavings := packet.writeLeavings - length
        readLeavings := packet.readLeavings + length } := by
  have readLeavings := consistent.readLeavings_eq
  by_cases behind : packet.readLeavings + packet.readLength < packet.writeLength + length
  · simp only [writeSkip, if_pos behind]
    congr 1
    omega
  · simp only [writeSkip, if_neg behind]
    congr 1
    omega

theorem store_eq (consistent : packet.Consistent) (bytes : List UInt8) :
    packet.store bytes = packet.appended bytes := by
  have skips := (consistent.filled (packet.szBuffer.write packet.write bytes)).writeSkip_eq
    (Int.natCast_nonneg bytes.length)
  rw [IOPacket.store, skips, consistent.write_eq]
  simp only [appended, consistent.write_eq]

theorem appended (consistent : packet.Consistent) {bytes : List UInt8}
    (fits : bytes.length ≤ packet.writeLeavings) : (packet.appended bytes).Consistent := by
  rw [← consistent.store_eq]
  exact consistent.store fits

theorem fits_iff (consistent : packet.Consistent) (length : Int) :
    length ≤ packet.writeLeavings ↔ packet.writeLength + length ≤ socketIoBufferSize := by
  have leavings := consistent.writeLeavings_eq
  omega

theorem writeTyped_eq (consistent : packet.Consistent) (type : ScalarType) (data : type.Val) :
    packet.writeTyped type data =
      if type.size ≤ packet.writeLeavings then
        some (packet.appended (LittleEndian.encode type.size data.toNat))
      else none := by
  rcases consistent.leavings with ⟨-, nonneg, le, -⟩
  rw [← consistent.store_eq]
  cases type with
  | char =>
      have room : 1 ≤ toSizeT packet.writeLeavings ↔
          (ScalarType.char.size : Int) ≤ packet.writeLeavings := by
        rw [toSizeT_of_nonneg nonneg (by omega)]
        simp only [ScalarType.size]
        omega
      simp only [IOPacket.writeTyped, IOPacket.writeChar, room]
      rfl
  | short => rfl
  | long => rfl
  | longLong => rfl

/-- An array for which there is room is appended. -/
theorem writeCharArray_eq (consistent : packet.Consistent) (data : Memory) {length : Nat}
    (room : length ≤ packet.writeLeavings) :
    packet.writeCharArray data length = some (packet.appended (data.read 0 length)) := by
  have copied : packet.szBuffer.copy packet.write (fun i => data i) (memcpySize length) =
      packet.szBuffer.write packet.write (data.read 0 length) := by
    rw [Memory.write_read, memcpySize, if_neg (by omega), Int.toNat_natCast]
    simp only [Int.zero_add]
  have stored := consistent.store_eq (data.read 0 length)
  rw [IOPacket.store, Memory.length_read] at stored
  rw [writeCharArray, if_pos room, copied, stored]

theorem appended_staysInside (consistent : packet.Consistent) {bytes : List UInt8}
    (fits : packet.writeLength + bytes.length ≤ socketIoBufferSize) :
    packet.StaysInside (packet.appended bytes) := by
  intro address outside
  have nonneg := consistent.writeLength_nonneg
  exact Memory.write_outside (by omega)

theorem overwritten_staysInside (consistent : packet.Consistent) {bytes : List UInt8}
    {offset : Int} (nonneg : 0 ≤ offset) (inside : offset + bytes.length ≤ packet.writeLength) :
    packet.StaysInside (packet.overwritten offset bytes) := by
  intro address outside
  have write_le := consistent.writeLength_le
  exact Memory.write_outside (by omega)

end Consistent

theorem outcome_of_none {packet : IOPacket} {call : WriteCall}
    (refused : packet.performWrite call = none) : packet.outcome call = (false, packet) := by
  rw [outcome, refused]

theorem outcome_of_some {packet after : IOPacket} {call : WriteCall}
    (written : packet.performWrite call = some after) : packet.outcome call = (true, after) := by
  rw [outcome, written]

theorem allOrNothing_of_none {packet : IOPacket} {call : WriteCall}
    (refused : packet.performWrite call = none) : packet.AllOrNothing call :=
  .inl (outcome_of_none refused)

theorem allOrNothing_of_some {packet after : IOPacket} {call : WriteCall}
    (written : packet.performWrite call = some after) :
    packet.AllOrNothing call ↔ packet.Stores call after ∧ packet.StaysInside after := by
  rw [AllOrNothing, outcome_of_some written]
  constructor
  · rintro (refused | ⟨other, same, stores⟩)
    · exact absurd (Prod.mk.inj refused).1 (by decide)
    · rcases (Prod.mk.inj same).2 with rfl
      exact stores
  · intro stores
    exact .inr ⟨after, rfl, stores⟩

/-! ## What each write does -/

section Writes

variable {packet : IOPacket}

theorem allOrNothing_writeTyped (consistent : packet.Consistent) (type : ScalarType)
    (data : type.Val) : packet.AllOrNothing (.writeTyped type data) := by
  have writes : packet.performWrite (.writeTyped type data) = _ :=
    consistent.writeTyped_eq type data
  split at writes
  · next room =>
      have fits : packet.writeLength + (LittleEndian.encode type.size data.toNat).length ≤
          socketIoBufferSize := by
        rw [LittleEndian.length_encode]
        exact (consistent.fits_iff _).mp room
      exact (allOrNothing_of_some writes).mpr
        ⟨⟨fits, rfl⟩, consistent.appended_staysInside fits⟩
  · exact allOrNothing_of_none writes

/-- An array is appended as a whole, unless its size is not what the code takes it for. -/
theorem allOrNothing_writeTypedArray_iff (consistent : packet.Consistent) (type : ScalarType)
    (data : Memory) (length : Count) :
    packet.AllOrNothing (.writeTypedArray type data length) ↔
      packet.WritesWhole (.writeTypedArray type data length) := by
  rcases consistent.leavings with ⟨-, nonneg, le, -⟩
  have writes : packet.performWrite (.writeTypedArray type data length) =
      packet.writeCharArray data (byteCount length type.size) :=
    writeTypedArray_eq packet data length type
  have encoding_length :
      (WriteCall.writeTypedArray type data length).encoding.length = length * type.size :=
    Memory.length_read _ _ _
  simp only [WritesWhole]
  by_cases room : (length * type.size : Nat) ≤ packet.writeLeavings
  · have size : byteCount length type.size = (length * type.size : Nat) := by
      rw [byteCount, ← Int.natCast_mul]
      exact toLong_of_mem_range (by omega) (by omega)
    have fits := (consistent.fits_iff _).mp room
    rw [← encoding_length] at fits
    rw [size, consistent.writeCharArray_eq data room] at writes
    refine iff_of_true ?_ (.inr room)
    exact (allOrNothing_of_some writes).mpr ⟨⟨fits, rfl⟩, consistent.appended_staysInside fits⟩
  · rw [or_iff_left room]
    by_cases refused : packet.writeLeavings < byteCount length type.size
    · rw [writeCharArray, if_neg (Int.not_le.mpr refused)] at writes
      exact iff_of_true (allOrNothing_of_none writes) refused
    · rw [writeCharArray, if_pos (Int.not_lt.mp refused)] at writes
      refine iff_of_false ?_ refused
      rw [allOrNothing_of_some writes]
      rintro ⟨⟨fits, -⟩, -⟩
      rw [encoding_length] at fits
      exact room ((consistent.fits_iff _).mpr fits)

/-- A string for which there is room goes behind its length. -/
theorem writeString_eq (consistent : packet.Consistent) {data : CString}
    (room : data.bytes.length + 2 ≤ packet.writeLeavings) :
    packet.writeString (some data) =
      some (packet.appended (LittleEndian.encode 2 data.bytes.length ++ data.bytes)) := by
  rcases consistent.leavings with ⟨-, nonneg, le, -⟩
  have length_eq : toLong data.bytes.length = data.bytes.length :=
    toLong_of_mem_range (by omega) (by omega)
  have bits : (BitVec.ofInt 16 data.bytes.length).toNat = data.bytes.length := by
    rw [BitVec.toNat_ofInt]
    omega
  have stated : packet.writeShort (.ofInt 16 data.bytes.length) =
      some (packet.appended (LittleEndian.encode 2 data.bytes.length)) := by
    have written : packet.writeShort (.ofInt 16 data.bytes.length) =
        some (packet.store (LittleEndian.encode 2 (BitVec.ofInt 16 data.bytes.length).toNat)) := by
      refine if_pos ?_
      omega
    rw [written, bits, consistent.store_eq]
  have statedFits : ((LittleEndian.encode 2 data.bytes.length).length : Int) ≤
      packet.writeLeavings := by
    rw [LittleEndian.length_encode]
    omega
  have stored := (consistent.appended statedFits).store_eq data.bytes
  rw [appended_appended, IOPacket.store] at stored
  have accepted : (data.bytes.length : Int) ≤ packet.writeLeavings := by omega
  simp only [writeString, length_eq, if_pos accepted, stated, Option.getD_some]
  rw [stored]

/-- A string is appended as a whole, unless there is room for it and not for its length. -/
theorem allOrNothing_writeString_iff (consistent : packet.Consistent) (data : Option CString) :
    packet.AllOrNothing (.writeString data) ↔ packet.WritesWhole (.writeString data) := by
  cases data with
  | none => exact iff_of_true (allOrNothing_of_none rfl) trivial
  | some data =>
      have encoding_length : (WriteCall.writeString (some data)).encoding.length =
          data.bytes.length + 2 := by
        rw [WriteCall.encoding, List.length_append, LittleEndian.length_encode, Nat.add_comm]
      by_cases room : data.bytes.length + 2 ≤ packet.writeLeavings
      · have fits : packet.writeLength + (WriteCall.writeString (some data)).encoding.length ≤
            socketIoBufferSize := by
          rw [encoding_length]
          exact (consistent.fits_iff _).mp room
        have written : packet.performWrite (.writeString (some data)) = _ :=
          writeString_eq consistent room
        refine iff_of_true ?_ (.inr room)
        exact (allOrNothing_of_some written).mpr
          ⟨⟨fits, rfl⟩, consistent.appended_staysInside fits⟩
      · simp only [WritesWhole, or_iff_left room]
        by_cases refused : packet.writeLeavings < toLong data.bytes.length
        · refine iff_of_true (allOrNothing_of_none ?_) refused
          exact if_neg (Int.not_le.mpr refused)
        · have written : packet.performWrite (.writeString (some data)) = some _ :=
            if_pos (Int.not_lt.mp refused)
          refine iff_of_false ?_ refused
          rw [allOrNothing_of_some written]
          rintro ⟨⟨fits, -⟩, -⟩
          rw [encoding_length] at fits
          exact room ((consistent.fits_iff _).mpr fits)

/-- A value is overwritten within what has been written, unless its offset is negative. -/
theorem allOrNothing_reWriteTyped_iff (consistent : packet.Consistent) (type : ScalarType)
    (offset : Int) (data : type.Val) :
    packet.AllOrNothing (.reWriteTyped type offset data) ↔
      packet.WritesWhole (.reWriteTyped type offset data) := by
  have rewrites : packet.performWrite (.reWriteTyped type offset data) =
      packet.reWrite type.size offset data := by
    cases type <;> rfl
  have nonneg := consistent.writeLength_nonneg
  have write_le := consistent.writeLength_le
  have size_le := type.size_le
  have last : toLong (packet.writeLength - type.size) = packet.writeLength - type.size := by
    simp only [socketIoBufferSize] at write_le
    exact toLong_of_mem_range (by omega) (by omega)
  have encoding_length : (WriteCall.reWriteTyped type offset data).encoding.length = type.size :=
    LittleEndian.length_encode _ _
  simp only [WritesWhole]
  rw [reWrite, last] at rewrites
  by_cases refused : packet.writeLength - type.size < offset
  · rw [if_pos refused] at rewrites
    exact iff_of_true (allOrNothing_of_none rewrites) (.inr refused)
  · rw [if_neg refused] at rewrites
    rw [allOrNothing_of_some rewrites, or_iff_left refused]
    constructor
    · rintro ⟨⟨offset_nonneg, -, -⟩, -⟩
      exact offset_nonneg
    · intro offset_nonneg
      have inside : offset + (WriteCall.reWriteTyped type offset data).encoding.length ≤
          packet.writeLength := by
        rw [encoding_length]
        omega
      exact ⟨⟨offset_nonneg, inside, rfl⟩,
        consistent.overwritten_staysInside offset_nonneg inside⟩

end Writes

/-- Exactly when there is room for the array or the string with its length, and an overwritten value
is at no negative offset, or the call is refused, a write is all or nothing. -/
theorem allOrNothing_iff {packet : IOPacket} (consistent : packet.Consistent)
    (call : WriteCall) : packet.AllOrNothing call ↔ packet.WritesWhole call := by
  cases call with
  | writeTyped type data => exact iff_of_true (allOrNothing_writeTyped consistent type data) trivial
  | writeTypedArray type data length =>
      exact allOrNothing_writeTypedArray_iff consistent type data length
  | writeString data => exact allOrNothing_writeString_iff consistent data
  | reWriteTyped type offset data => exact allOrNothing_reWriteTyped_iff consistent type offset data

/-- A short string is written to a fresh packet as a whole. -/
theorem allOrNothing_construct :
    construct.AllOrNothing (.writeString (some ⟨[97, 98], by decide, by decide⟩)) :=
  (allOrNothing_iff consistent_construct _).mpr (.inr (by decide))

/-- When two bytes are left, a string of two bytes is accepted, and put behind the end of the
buffer. -/
theorem overruns_without_room_for_length :
    ∃ packet, construct.writeCharArray .zero 16334 = some packet ∧ packet.Consistent ∧
      ¬packet.AllOrNothing (.writeString (some ⟨[97], by decide, by decide⟩)) := by
  have written : construct.writeCharArray .zero 16334 = some _ := if_pos (by decide)
  have consistent := (consistent_construct.writeCharArray_iff written).mpr (by decide)
  refine ⟨_, written, consistent, ?_⟩
  rw [allOrNothing_writeString_iff consistent]
  rintro (refused | room)
  · exact absurd refused (by decide)
  · exact absurd room (by decide)

end IOPacket

end SunPush
