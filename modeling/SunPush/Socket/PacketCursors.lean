import SunPush.Library.Transition
import SunPush.Socket.IOPacket

/-!
# The cursors of the packet buffer

Six fields say how far an `IOPacket` has been written and read.  Each call keeps
them in step except for two kinds: `Resize` to more than has been written moves
the limits and not the write position, and an array whose size in bytes does not
fit a `long` moves a position backwards.
-/

namespace SunPush

open CInteger

/-- The types that have a read, a write and an overwrite of their own, and arrays. -/
inductive ScalarType where
  | char
  | short
  | long
  | longLong
  deriving DecidableEq, Repr

namespace ScalarType

def size : ScalarType → Nat
  | char => 1
  | short => 2
  | long => 4
  | longLong => 8

/-- The values of the type, as their bits. -/
abbrev Val (type : ScalarType) : Type := BitVec (8 * type.size)

theorem size_le (type : ScalarType) : type.size ≤ 8 := by
  cases type <;> decide

end ScalarType

namespace IOPacket

def readTyped (packet : IOPacket) : (type : ScalarType) → Option (type.Val × IOPacket)
  | .char => packet.readChar
  | .short => packet.readShort
  | .long => packet.readLong
  | .longLong => packet.readLongLong

def readTypedArray (packet : IOPacket) (length : Int) : ScalarType → Option (Int × IOPacket)
  | .char => packet.readCharArray length
  | .short => packet.readShortArray length
  | .long => packet.readLongArray length
  | .longLong => packet.readLongLongArray length

def writeTyped (packet : IOPacket) : (type : ScalarType) → type.Val → Option IOPacket
  | .char, data => packet.writeChar data
  | .short, data => packet.writeShort data
  | .long, data => packet.writeLong data
  | .longLong, data => packet.writeLongLong data

def writeTypedArray (packet : IOPacket) (data : Memory) (length : Int) :
    ScalarType → Option IOPacket
  | .char => packet.writeCharArray data length
  | .short => packet.writeShortArray data length
  | .long => packet.writeLongArray data length
  | .longLong => packet.writeLongLongArray data length

/-- The cursors agree with each other and stay within the buffer. -/
structure Consistent (packet : IOPacket) : Prop where
  readLength_nonneg : 0 ≤ packet.readLength
  readLength_le : packet.readLength ≤ packet.writeLength
  writeLength_le : packet.writeLength ≤ socketIoBufferSize
  writeLeavings_eq : packet.writeLeavings = socketIoBufferSize - packet.writeLength
  readLeavings_eq : packet.readLeavings = packet.writeLength - packet.readLength
  write_eq : packet.write = packet.writeLength
  read_eq : packet.read = packet.readLength

theorem consistent_clear (packet : IOPacket) : packet.clear.Consistent where
  readLength_nonneg := Int.le_refl 0
  readLength_le := Int.le_refl 0
  writeLength_le := Int.natCast_nonneg 16336
  writeLeavings_eq := rfl
  readLeavings_eq := rfl
  write_eq := rfl
  read_eq := rfl

theorem consistent_construct : construct.Consistent := consistent_clear _

namespace Consistent

variable {packet after : IOPacket}

theorem writeLength_nonneg (consistent : packet.Consistent) : 0 ≤ packet.writeLength :=
  Int.le_trans consistent.readLength_nonneg consistent.readLength_le

/-- The bounds of the limits, in the form arithmetic needs them. -/
theorem leavings (consistent : packet.Consistent) :
    0 ≤ packet.readLeavings ∧ 0 ≤ packet.writeLeavings ∧
      packet.writeLeavings ≤ 16336 ∧ packet.readLeavings ≤ 16336 := by
  have read_nonneg := consistent.readLength_nonneg
  have read_le := consistent.readLength_le
  have write_le := consistent.writeLength_le
  have writeLeavings := consistent.writeLeavings_eq
  have readLeavings := consistent.readLeavings_eq
  simp only [socketIoBufferSize] at write_le writeLeavings
  omega

theorem resetReadPos (consistent : packet.Consistent) : packet.resetReadPos.Consistent where
  readLength_nonneg := Int.le_refl 0
  readLength_le := consistent.writeLength_nonneg
  writeLength_le := consistent.writeLength_le
  writeLeavings_eq := consistent.writeLeavings_eq
  readLeavings_eq := (Int.sub_zero _).symm
  write_eq := consistent.write_eq
  read_eq := rfl

/-- Skipping keeps the cursors in step unless it goes back over the start. -/
theorem readSkip_iff (consistent : packet.Consistent) {length : Int}
    (skips : packet.readSkip length = some after) :
    after.Consistent ↔ 0 ≤ packet.readLength + length := by
  rw [IOPacket.readSkip, Option.ite_none_left_eq_some, Option.some.injEq] at skips
  rcases skips with ⟨enough, rfl⟩
  constructor
  · intro kept
    exact kept.readLength_nonneg
  · intro nonneg
    have readLeavings := consistent.readLeavings_eq
    have read_eq := consistent.read_eq
    refine ⟨nonneg, ?_, consistent.writeLength_le, consistent.writeLeavings_eq, ?_,
      consistent.write_eq, ?_⟩
    · simp only
      omega
    · simp only
      omega
    · simp only
      omega

/-- Writing moves the write position forwards, and then keeps the cursors in step. -/
theorem writeSkip_iff (consistent : packet.Consistent) {length : Int}
    (fits : length ≤ packet.writeLeavings) : (packet.writeSkip length).Consistent ↔ 0 ≤ length := by
  have readLeavings := consistent.readLeavings_eq
  have writeLeavings := consistent.writeLeavings_eq
  have write_eq := consistent.write_eq
  have read_le := consistent.readLength_le
  have nonneg := consistent.readLength_nonneg
  by_cases behind : packet.readLeavings + packet.readLength < packet.writeLength + length
  · simp only [IOPacket.writeSkip, if_pos behind]
    refine iff_of_true ?_ (by omega)
    constructor <;> simp only <;> first | omega | exact consistent.read_eq
  · simp only [IOPacket.writeSkip, if_neg behind]
    constructor
    · intro kept
      have kept_eq := kept.readLeavings_eq
      simp only at kept_eq
      omega
    · intro length_nonneg
      constructor <;> simp only <;> first | omega | exact consistent.read_eq

theorem filled (consistent : packet.Consistent) (szBuffer : Memory) :
    { packet with szBuffer := szBuffer }.Consistent where
  readLength_nonneg := consistent.readLength_nonneg
  readLength_le := consistent.readLength_le
  writeLength_le := consistent.writeLength_le
  writeLeavings_eq := consistent.writeLeavings_eq
  readLeavings_eq := consistent.readLeavings_eq
  write_eq := consistent.write_eq
  read_eq := consistent.read_eq

theorem store (consistent : packet.Consistent) {bytes : List UInt8}
    (fits : bytes.length ≤ packet.writeLeavings) : (packet.store bytes).Consistent :=
  ((consistent.filled (packet.szBuffer.write packet.write bytes)).writeSkip_iff fits).mpr
    (Int.natCast_nonneg _)

theorem writeScalar (consistent : packet.Consistent) {width : Nat} {data : BitVec (8 * width)}
    (writes : packet.writeScalar width data = some after) : after.Consistent := by
  rw [IOPacket.writeScalar, Option.ite_none_right_eq_some, Option.some.injEq] at writes
  rcases writes with ⟨fits, rfl⟩
  apply consistent.store
  rw [LittleEndian.length_encode]
  exact fits

theorem writeChar (consistent : packet.Consistent) {data : BitVec 8}
    (writes : packet.writeChar data = some after) : after.Consistent := by
  rw [IOPacket.writeChar, Option.ite_none_right_eq_some, Option.some.injEq] at writes
  rcases writes with ⟨fits, rfl⟩
  rcases consistent.leavings with ⟨-, nonneg, le, -⟩
  rw [toSizeT_of_nonneg nonneg (by omega)] at fits
  apply consistent.store
  rw [LittleEndian.length_encode]
  omega

theorem readScalar (consistent : packet.Consistent) {width : Nat} {data : BitVec (8 * width)}
    (reads : packet.readScalar width = some (data, after)) : after.Consistent := by
  rw [IOPacket.readScalar, Option.map_eq_some_iff] at reads
  rcases reads with ⟨skipped, skips, same⟩
  rcases (Prod.mk.inj same).2 with rfl
  apply (consistent.readSkip_iff skips).mpr
  have nonneg := consistent.readLength_nonneg
  omega

theorem readCharArray_iff (consistent : packet.Consistent) {length position : Int}
    (reads : packet.readCharArray length = some (position, after)) :
    after.Consistent ↔ 0 ≤ packet.readLength + length := by
  rw [IOPacket.readCharArray, Option.map_eq_some_iff] at reads
  rcases reads with ⟨skipped, skips, same⟩
  rcases (Prod.mk.inj same).2 with rfl
  exact consistent.readSkip_iff skips

theorem writeCharArray_iff (consistent : packet.Consistent) {data : Memory} {length : Int}
    (writes : packet.writeCharArray data length = some after) :
    after.Consistent ↔ 0 ≤ length := by
  rw [IOPacket.writeCharArray, Option.ite_none_right_eq_some, Option.some.injEq] at writes
  rcases writes with ⟨fits, rfl⟩
  exact (consistent.filled _).writeSkip_iff fits

/-- Cutting off keeps the cursors in step, unless what has been written is shorter already. -/
theorem resize_iff (consistent : packet.Consistent) {newAllSize : Int} (nonneg : 0 ≤ newAllSize)
    (cuts : packet.resize newAllSize = some after) :
    after.Consistent ↔ newAllSize ≤ packet.writeLength := by
  rw [IOPacket.resize, Option.ite_none_left_eq_some, Option.some.injEq] at cuts
  rcases cuts with ⟨inside, rfl⟩
  have read_nonneg := consistent.readLength_nonneg
  have read_le := consistent.readLength_le
  have write_eq := consistent.write_eq
  have read_eq := consistent.read_eq
  by_cases cut : newAllSize < packet.writeLength
  · refine iff_of_true ?_ (by omega)
    by_cases unread : newAllSize < packet.readLength
    · simp only [if_pos cut, if_pos unread]
      constructor <;> simp only <;> omega
    · simp only [if_pos cut, if_neg unread]
      constructor <;> simp only <;> omega
  · have unread : ¬newAllSize < packet.readLength := by omega
    simp only [if_neg cut, if_neg unread]
    constructor
    · intro kept
      have leavings_eq := kept.writeLeavings_eq
      simp only at leavings_eq
      omega
    · intro le
      have write_le := consistent.writeLength_le
      constructor <;> simp only <;> omega

end Consistent

/-! ## Sequences of calls -/

/-- The values of a `long` from 0 up. -/
abbrev Count : Type := Fin (2 ^ 31)

/-- The calls that move the cursors. -/
inductive CursorCall where
  | clear
  | resetReadPos
  | resize (newAllSize : Count)
  | readTyped (type : ScalarType)
  | readPointer
  | readTypedArray (type : ScalarType) (length : Count)
  | writeTyped (type : ScalarType) (data : type.Val)
  | writePointer (ptr : BitVec 32)
  | writeTypedArray (type : ScalarType) (data : Memory) (length : Count)

/-- The packet after the call, whether it succeeds or not. -/
def perform (packet : IOPacket) : CursorCall → IOPacket
  | .clear => packet.clear
  | .resetReadPos => packet.resetReadPos
  | .resize newAllSize => (packet.resize newAllSize).getD packet
  | .readTyped type => ((packet.readTyped type).map Prod.snd).getD packet
  | .readPointer => (packet.readPointer.map Prod.snd).getD packet
  | .readTypedArray type length => ((packet.readTypedArray length type).map Prod.snd).getD packet
  | .writeTyped type data => (packet.writeTyped type data).getD packet
  | .writePointer ptr => (packet.writePointer ptr).getD packet
  | .writeTypedArray type data length => (packet.writeTypedArray data length type).getD packet

/-- A packet and the calls that are made on it. -/
def packetSystem : Transition.System IOPacket CursorCall where
  Initial packet := packet = construct
  step packet call := some (packet.perform call)

/-- `Resize` enlarges nothing, and no array has a size in bytes that is taken for a negative one. -/
def KeepsCursors (packet : IOPacket) : CursorCall → Prop
  | .resize newAllSize =>
      newAllSize ≤ packet.writeLength ∨ socketIoBufferSize < newAllSize
  | .readTypedArray type length => 0 ≤ packet.readLength + byteCount length type.size
  | .writeTypedArray type _ length => 0 ≤ byteCount length type.size
  | _ => True

instance (packet : IOPacket) : DecidablePred packet.KeepsCursors
  | .clear => isTrue trivial
  | .resetReadPos => isTrue trivial
  | .resize _ => inferInstanceAs (Decidable (_ ∨ _))
  | .readTyped _ => isTrue trivial
  | .readPointer => isTrue trivial
  | .readTypedArray _ _ => inferInstanceAs (Decidable (_ ≤ _))
  | .writeTyped _ _ => isTrue trivial
  | .writePointer _ => isTrue trivial
  | .writeTypedArray _ _ _ => inferInstanceAs (Decidable (_ ≤ _))

theorem readTyped_eq (packet : IOPacket) (type : ScalarType) :
    packet.readTyped type = packet.readScalar type.size := by
  cases type <;> rfl

theorem byteCount_char (length : Count) : byteCount length ScalarType.char.size = length := by
  have length_lt := length.isLt
  simp only [byteCount, ScalarType.size]
  rw [toLong_of_mem_range (by omega) (by omega)]
  omega

theorem readTypedArray_eq (packet : IOPacket) (length : Count) (type : ScalarType) :
    packet.readTypedArray length type = packet.readCharArray (byteCount length type.size) := by
  cases type with
  | char =>
      rw [byteCount_char]
      rfl
  | _ => rfl

theorem writeTypedArray_eq (packet : IOPacket) (data : Memory) (length : Count)
    (type : ScalarType) :
    packet.writeTypedArray data length type =
      packet.writeCharArray data (byteCount length type.size) := by
  cases type with
  | char =>
      rw [byteCount_char]
      rfl
  | _ => rfl

namespace Consistent

variable {packet : IOPacket}

theorem writeTyped (consistent : packet.Consistent) {after : IOPacket} {type : ScalarType}
    {data : type.Val} (writes : packet.writeTyped type data = some after) : after.Consistent := by
  cases type with
  | char => exact consistent.writeChar writes
  | short => exact consistent.writeScalar writes
  | long => exact consistent.writeScalar writes
  | longLong => exact consistent.writeScalar writes

/-- A call keeps the cursors in step exactly when it is no `Resize` to more than has been written
and no array whose size overflows. -/
theorem perform_iff (consistent : packet.Consistent) (call : CursorCall) :
    (packet.perform call).Consistent ↔ packet.KeepsCursors call := by
  have nonneg := consistent.readLength_nonneg
  have leavings := consistent.leavings
  cases call with
  | clear => exact iff_of_true (consistent_clear packet) trivial
  | resetReadPos => exact iff_of_true consistent.resetReadPos trivial
  | resize newAllSize =>
      cases cuts : packet.resize newAllSize with
      | none =>
          simp only [perform, cuts, Option.getD_none]
          refine iff_of_true consistent (.inr ?_)
          by_contra inside
          simp [resize, inside] at cuts
      | some after =>
          simp only [perform, cuts, Option.getD_some, KeepsCursors]
          rw [consistent.resize_iff (Int.natCast_nonneg _) cuts]
          rw [IOPacket.resize, Option.ite_none_left_eq_some] at cuts
          exact (or_iff_left cuts.1).symm
  | readTyped type =>
      refine iff_of_true ?_ trivial
      rw [perform, readTyped_eq]
      cases reads : packet.readScalar type.size with
      | none => exact consistent
      | some result => exact consistent.readScalar reads
  | readPointer =>
      refine iff_of_true ?_ trivial
      rw [perform]
      cases reads : packet.readPointer with
      | none => exact consistent
      | some result => exact consistent.readScalar reads
  | readTypedArray type length =>
      rw [perform, readTypedArray_eq]
      cases reads : packet.readCharArray (byteCount length type.size) with
      | none =>
          refine iff_of_true consistent ?_
          rw [readCharArray, Option.map_eq_none_iff, readSkip, ite_eq_left_iff] at reads
          by_contra negative
          simp only [KeepsCursors] at negative
          exact absurd (reads (by omega)) (by simp)
      | some result =>
          simp only [Option.map_some, Option.getD_some]
          exact consistent.readCharArray_iff reads
  | writeTyped type data =>
      refine iff_of_true ?_ trivial
      rw [perform]
      cases writes : packet.writeTyped type data with
      | none => exact consistent
      | some after => exact consistent.writeTyped writes
  | writePointer ptr =>
      refine iff_of_true ?_ trivial
      rw [perform]
      cases writes : packet.writePointer ptr with
      | none => exact consistent
      | some after => exact consistent.writeScalar writes
  | writeTypedArray type data length =>
      rw [perform, writeTypedArray_eq]
      cases writes : packet.writeCharArray data (byteCount length type.size) with
      | none =>
          refine iff_of_true consistent ?_
          by_contra negative
          simp only [KeepsCursors] at negative
          have fits : byteCount length type.size ≤ packet.writeLeavings := by omega
          simp [writeCharArray, fits] at writes
      | some after =>
          rw [Option.getD_some]
          exact consistent.writeCharArray_iff writes

end Consistent

/-- From a fresh packet on, the cursors are consistent throughout a sequence of calls exactly when
every call keeps them so. -/
theorem consistent_throughout_iff (calls : List CursorCall) :
    packetSystem.Throughout Consistent construct calls ↔
      packetSystem.RunMeets KeepsCursors construct calls := by
  refine @Transition.System.throughout_iff_runMeets _ _ packetSystem KeepsCursors
    (fun _ => True) Consistent (fun _ _ _ _ _ => trivial) ?_ ?_ construct calls trivial
      consistent_construct
  · rintro packet call next - consistent steps
    rcases Option.some.inj steps with rfl
    exact consistent.perform_iff call
  · exact fun packet call => ⟨_, rfl⟩

/-- Resizing a fresh packet to one byte leaves a byte to read that was never written. -/
theorem inconsistent_after_resize :
    ¬packetSystem.Throughout Consistent construct [.resize 1] := by
  intro throughout
  have kept := (throughout.2 _ rfl).readLeavings_eq
  exact absurd kept (by decide)

end IOPacket

end SunPush
