import SunPush.Socket.PacketReads
import SunPush.Socket.PacketWrites
import Mathlib.Data.List.TakeWhile

/-!
# The packet buffer as a queue of values

Values that are written to a cleared packet are read back in their order, even
while others are still being written, as long as all of them together fit the
buffer.  The bytes between the two cursors are the encodings of the values that
are pending.
-/

namespace SunPush

open CInteger

/-- A value that is written and read. -/
inductive PacketValue where
  | scalar (type : ScalarType) (data : type.Val)
  | string (data : CString)
  | bytes (data : List UInt8)

/-- What a read asks for. -/
inductive PacketKind where
  | scalar (type : ScalarType)
  | string
  | bytes (length : Nat)

namespace PacketValue

def kind : PacketValue → PacketKind
  | scalar type _ => .scalar type
  | string _ => .string
  | bytes data => .bytes data.length

def encoding : PacketValue → List UInt8
  | scalar type data => LittleEndian.encode type.size data.toNat
  | string data => LittleEndian.encode 2 data.bytes.length ++ data.bytes
  | bytes data => data

end PacketValue

namespace IOPacket

/-- `none` when the write returns `false`. -/
def writeValue (packet : IOPacket) : PacketValue → Option IOPacket
  | .scalar type data => packet.writeTyped type data
  | .string data => packet.writeString (some data)
  | .bytes data => packet.writeCharArray (Memory.zero.write 0 data) data.length

theorem takeWhile_noNul (chars : List UInt8) : 0 ∉ chars.takeWhile (· ≠ 0) := by
  intro mem
  have nonzero := List.mem_takeWhile_imp mem
  simp at nonzero

theorem takeWhile_addressable (szBuffer : Memory) (position : Int) :
    ((szBuffer.read position socketIoBufferSize.toNat).takeWhile (· ≠ 0)).length + 1 < 2 ^ 32 := by
  have bounded := (List.takeWhile_prefix (· ≠ 0)
    (l := szBuffer.read position socketIoBufferSize.toNat)).length_le
  rw [Memory.length_read] at bounded
  simp only [socketIoBufferSize] at bounded ⊢
  omega

/-- The characters from the position on up to the first NUL, at most as many as the buffer has. -/
def stringAt (szBuffer : Memory) (position : Int) : CString where
  chars := (szBuffer.read position socketIoBufferSize.toNat).takeWhile (· ≠ 0)
  noNul := takeWhile_noNul (szBuffer.read position socketIoBufferSize.toNat)
  addressable := takeWhile_addressable szBuffer position

/-- What is read, `none` when the read throws. -/
def readValue (packet : IOPacket) : PacketKind → Option (PacketValue × IOPacket)
  | .scalar type => (packet.readTyped type).map fun result => (.scalar type result.1, result.2)
  | .string =>
      match packet.readString with
      | (none, _) => none
      | (some position, after) => some (.string (stringAt after.szBuffer position), after)
  | .bytes length =>
      (packet.readCharArray length).map fun result =>
        (.bytes (packet.szBuffer.read result.1 length), result.2)

end IOPacket

/-- A write of a value, or a read. -/
inductive PacketOp where
  | write (value : PacketValue)
  | read (kind : PacketKind)

namespace PacketOp

def written : PacketOp → Option PacketValue
  | write value => some value
  | read _ => none

def asked : PacketOp → Option PacketKind
  | write _ => none
  | read kind => some kind

end PacketOp

/-- The values that are written, in their order. -/
def writesOf (ops : List PacketOp) : List PacketValue := ops.filterMap PacketOp.written

/-- What the reads ask for, in their order. -/
def readsOf (ops : List PacketOp) : List PacketKind := ops.filterMap PacketOp.asked

/-- The `k`-th read happens after the `k`-th write and asks for a value of its type. -/
def InOrder (ops : List PacketOp) : Prop :=
  ∀ before kind after, ops = before ++ .read kind :: after →
    ∃ value, (writesOf before)[(readsOf before).length]? = some value ∧ value.kind = kind

namespace IOPacket

/-- Perform the operations one after the other, and collect what is read; `none` as soon as a write
returns `false` or a read throws. -/
def runOps : IOPacket → List PacketOp → Option (IOPacket × List PacketValue)
  | packet, [] => some (packet, [])
  | packet, .write value :: ops => do
      let packet ← packet.writeValue value
      packet.runOps ops
  | packet, .read kind :: ops => do
      let (value, packet) ← packet.readValue kind
      let (packet, values) ← packet.runOps ops
      return (packet, value :: values)

/-! ## The queue between the cursors -/

/-- The bytes that have been written and not been read are those of the pending values. -/
structure Holds (packet : IOPacket) (pending : List PacketValue) : Prop where
  consistent : packet.Consistent
  length_eq : packet.readLeavings = (pending.flatMap PacketValue.encoding).length
  unread : packet.szBuffer.read packet.readLength (pending.flatMap PacketValue.encoding).length =
    pending.flatMap PacketValue.encoding

namespace Holds

variable {packet : IOPacket} {pending : List PacketValue}

theorem clear (packet : IOPacket) : packet.clear.Holds [] :=
  ⟨consistent_clear packet, rfl, rfl⟩

/-- What is appended is pending behind what was pending before. -/
theorem appended (holds : packet.Holds pending) {value : PacketValue}
    (fits : value.encoding.length ≤ packet.writeLeavings) :
    (packet.appended value.encoding).Holds (pending ++ [value]) := by
  have consistent := holds.consistent
  have readLeavings := consistent.readLeavings_eq
  have length_eq := holds.length_eq
  have whole : (pending ++ [value]).flatMap PacketValue.encoding =
      pending.flatMap PacketValue.encoding ++ value.encoding := by
    rw [List.flatMap_append, List.flatMap_singleton]
  have position : packet.writeLength =
      packet.readLength + (pending.flatMap PacketValue.encoding).length := by omega
  refine ⟨consistent.appended fits, ?_, ?_⟩
  · rw [whole, List.length_append, Int.natCast_add, ← length_eq]
    rfl
  · have before : (packet.szBuffer.write packet.writeLength value.encoding).read
        packet.readLength (pending.flatMap PacketValue.encoding).length =
          pending.flatMap PacketValue.encoding := by
      rw [Memory.write, Memory.read_copy_of_disjoint (.inl (Int.le_of_eq position.symm))]
      exact holds.unread
    rw [whole, List.length_append, Memory.read_add]
    change (packet.szBuffer.write packet.writeLength value.encoding).read packet.readLength _ ++
      (packet.szBuffer.write packet.writeLength value.encoding).read
        (packet.readLength + _) _ = _
    rw [before, ← position, Memory.read_write_self]

theorem skipped {value : PacketValue} (holds : packet.Holds (value :: pending)) :
    (packet.skipped value.encoding.length).Holds pending := by
  have consistent := holds.consistent
  have length_eq := holds.length_eq
  have unread := holds.unread
  have skips : packet.readSkip value.encoding.length =
      some (packet.skipped value.encoding.length) := by
    rw [readSkip_eq, if_neg]
    rw [length_eq, List.flatMap_cons, List.length_append]
    omega
  have nonneg := consistent.readLength_nonneg
  refine ⟨(consistent.readSkip_iff skips).mpr (by omega), ?_, ?_⟩
  · simp only [IOPacket.skipped]
    rw [length_eq, List.flatMap_cons, List.length_append]
    omega
  · rw [List.flatMap_cons, List.length_append, Memory.read_add] at unread
    exact (List.append_inj unread (Memory.length_read _ _ _)).2

end Holds

/-! ## Single values -/

theorem writeValue_eq {packet : IOPacket} (consistent : packet.Consistent) {value : PacketValue}
    (fits : value.encoding.length ≤ packet.writeLeavings) :
    packet.writeValue value = some (packet.appended value.encoding) := by
  cases value with
  | scalar type data =>
      rw [PacketValue.encoding, LittleEndian.length_encode] at fits
      rw [writeValue, consistent.writeTyped_eq, if_pos fits]
      rfl
  | string data =>
      rw [PacketValue.encoding, List.length_append, LittleEndian.length_encode] at fits
      exact writeString_eq consistent (by omega)
  | bytes data =>
      have stored := consistent.writeCharArray_eq (Memory.zero.write 0 data) fits
      rw [PacketValue.encoding, Memory.read_write_self] at stored
      exact stored

/-- A string that lies in memory with the NUL behind it is found there. -/
theorem stringAt_eq {szBuffer : Memory} {position : Int} {data : CString}
    (small : data.bytes.length ≤ 16336)
    (lies : szBuffer.read position data.bytes.length = data.bytes) :
    stringAt szBuffer position = data := by
  obtain ⟨rest, size⟩ : ∃ rest, socketIoBufferSize.toNat = data.bytes.length + rest :=
    Nat.exists_eq_add_of_le small
  have nonzero : ∀ char ∈ data.chars, (decide (char ≠ 0)) = true := by
    intro char mem
    apply decide_eq_true
    rintro rfl
    exact data.noNul mem
  have chars : (stringAt szBuffer position).chars = data.chars := by
    simp only [stringAt]
    rw [size, Memory.read_add, lies, CString.bytes, List.append_assoc,
      List.takeWhile_append_of_pos nonzero, List.singleton_append,
      List.takeWhile_cons_of_neg (by decide), List.append_nil]
  cases data
  simp only [stringAt, CString.mk.injEq] at chars ⊢
  exact chars

/-- The first pending value is read, and then pending no more. -/
theorem Holds.readValue {packet : IOPacket} {value : PacketValue} {pending : List PacketValue}
    (holds : packet.Holds (value :: pending)) :
    packet.readValue value.kind = some (value, packet.skipped value.encoding.length) := by
  have consistent := holds.consistent
  have leavings := consistent.leavings
  have length_eq := holds.length_eq
  have unread := holds.unread
  rw [List.flatMap_cons, List.length_append] at length_eq
  rw [List.flatMap_cons, List.length_append, Memory.read_add] at unread
  have lies := (List.append_inj unread (Memory.length_read _ _ _)).1
  rw [← consistent.read_eq] at lies
  cases value with
  | scalar type data =>
      rw [PacketValue.encoding, LittleEndian.length_encode] at lies length_eq ⊢
      have enough : ¬packet.readLeavings < type.size := by omega
      have decoded : BitVec.ofNat (8 * type.size)
          (LittleEndian.decode (LittleEndian.encode type.size data.toNat)) = data := by
        rw [LittleEndian.decode_encode, Nat.mod_eq_of_lt, BitVec.ofNat_toNat, BitVec.setWidth_eq]
        have width : 256 ^ type.size = 2 ^ (8 * type.size) := (Nat.pow_mul 2 8 type.size).symm
        rw [width]
        exact data.isLt
      simp only [PacketValue.kind, IOPacket.readValue, readTyped_eq, readScalar_eq, if_neg enough,
        Option.map_some, lies, decoded]
  | string data =>
      rw [PacketValue.encoding, List.length_append, LittleEndian.length_encode] at lies length_eq ⊢
      rw [Memory.read_add] at lies
      rcases List.append_inj lies (by simp) with ⟨stated, chars⟩
      have small : data.bytes.length ≤ 16336 := by omega
      have length : packet.statedLength = data.bytes.length := by
        rw [statedLength, stated, LittleEndian.decode_encode, Nat.mod_eq_of_lt (by omega),
          BitVec.toInt_eq_toNat_of_lt]
        · rw [BitVec.toNat_ofNat, Nat.mod_eq_of_lt (by omega)]
        · rw [BitVec.toNat_ofNat]
          omega
      have enough : ¬packet.readLeavings < 2 := by omega
      have fits : ¬packet.readLeavings - 2 < packet.statedLength := by omega
      have found : stringAt packet.szBuffer (packet.read + 2) = data := stringAt_eq small chars
      have together : (packet.skipped 2).skipped packet.statedLength =
          packet.skipped (2 + data.bytes.length : Nat) := by
        rw [length, Int.natCast_add]
        simp only [IOPacket.skipped, Int.add_assoc, Int.sub_sub]
        rfl
      simp only [PacketValue.kind, IOPacket.readValue, readString_eq, if_neg enough, if_neg fits,
        together]
      simp only [IOPacket.skipped, found]
  | bytes data =>
      have enough : ¬packet.readLeavings < (data.length : Int) := by
        rw [PacketValue.encoding] at length_eq
        omega
      simp only [PacketValue.kind, IOPacket.readValue, readCharArray, readSkip_eq, if_neg enough,
        Option.map_some, PacketValue.encoding]
      rw [PacketValue.encoding] at lies
      rw [lies]

/-! ## Runs -/

/-- As `InOrder`, with values already pending. -/
def InOrderBehind (pending : List PacketValue) (ops : List PacketOp) : Prop :=
  ∀ before kind after, ops = before ++ .read kind :: after →
    ∃ value, (pending ++ writesOf before)[(readsOf before).length]? = some value ∧
      value.kind = kind

namespace InOrderBehind

variable {pending : List PacketValue} {ops : List PacketOp}

theorem write {value : PacketValue} (inOrder : InOrderBehind pending (.write value :: ops)) :
    InOrderBehind (pending ++ [value]) ops := by
  intro before kind after split
  rcases inOrder (.write value :: before) kind after (congrArg (.write value :: ·) split) with
    ⟨next, at_reads, same⟩
  refine ⟨next, ?_, same⟩
  have written : writesOf (.write value :: before) = value :: writesOf before := rfl
  rw [List.append_assoc, List.singleton_append, ← written]
  exact at_reads

theorem read {kind : PacketKind} (inOrder : InOrderBehind pending (.read kind :: ops)) :
    ∃ value rest, pending = value :: rest ∧ value.kind = kind ∧ InOrderBehind rest ops := by
  rcases inOrder [] kind ops rfl with ⟨first, at_start, same⟩
  cases pending with
  | nil => contradiction
  | cons value rest =>
      have first_eq : value = first := Option.some.inj at_start
      refine ⟨value, rest, rfl, first_eq ▸ same, ?_⟩
      intro before next after split
      rcases inOrder (.read kind :: before) next after (congrArg (.read kind :: ·) split) with
        ⟨found, at_reads, same⟩
      exact ⟨found, at_reads, same⟩

theorem nil : InOrderBehind pending [] := by
  intro before kind after split
  simp at split

theorem cons_write {value : PacketValue} (later : InOrderBehind (pending ++ [value]) ops) :
    InOrderBehind pending (.write value :: ops) := by
  intro before kind after split
  cases before with
  | nil => simp at split
  | cons first before =>
      simp only [List.cons_append, List.cons.injEq] at split
      rcases split with ⟨rfl, split⟩
      rcases later before kind after split with ⟨next, at_reads, same⟩
      rw [List.append_assoc, List.singleton_append] at at_reads
      exact ⟨next, at_reads, same⟩

theorem cons_read {value : PacketValue} (later : InOrderBehind pending ops) :
    InOrderBehind (value :: pending) (.read value.kind :: ops) := by
  intro before kind after split
  cases before with
  | nil =>
      simp only [List.nil_append, List.cons.injEq, PacketOp.read.injEq] at split
      exact ⟨value, rfl, split.1⟩
  | cons first before =>
      simp only [List.cons_append, List.cons.injEq] at split
      rcases split with ⟨rfl, split⟩
      exact later before kind after split

end InOrderBehind

/-- From a packet with pending values the reads return these and then what is written, in order. -/
theorem Holds.runOps {ops : List PacketOp} :
    ∀ {packet : IOPacket} {pending : List PacketValue}, packet.Holds pending →
      InOrderBehind pending ops →
      (((writesOf ops).flatMap PacketValue.encoding).length : Int) ≤ packet.writeLeavings →
      ∃ last, packet.runOps ops =
        some (last, (pending ++ writesOf ops).take (readsOf ops).length) := by
  induction ops with
  | nil =>
      intro packet pending _ _ _
      exact ⟨packet, rfl⟩
  | cons op ops ih =>
      intro packet pending holds inOrder fits
      cases op with
      | write value =>
          have written : writesOf (.write value :: ops) = value :: writesOf ops := rfl
          rw [written, List.flatMap_cons, List.length_append] at fits
          have first_fits : (value.encoding.length : Int) ≤ packet.writeLeavings := by omega
          have rest_fits : (((writesOf ops).flatMap PacketValue.encoding).length : Int) ≤
              (packet.appended value.encoding).writeLeavings := by
            simp only [IOPacket.appended]
            omega
          rcases ih (holds.appended first_fits) inOrder.write rest_fits with ⟨last, runs⟩
          refine ⟨last, ?_⟩
          rw [List.append_assoc, List.singleton_append, ← written] at runs
          rw [IOPacket.runOps, writeValue_eq holds.consistent first_fits]
          exact runs
      | read kind =>
          rcases inOrder.read with ⟨value, rest, rfl, rfl, behind⟩
          rcases ih holds.skipped behind fits with ⟨last, runs⟩
          refine ⟨last, ?_⟩
          rw [IOPacket.runOps, holds.readValue]
          simp only [Option.bind_eq_bind, Option.bind_some, runs]
          rfl

/-- A cleared packet gives back what is written to it, as long as it all fits and every read comes
after its write. -/
theorem runOps_clear (packet : IOPacket) {ops : List PacketOp} (inOrder : InOrder ops)
    (fits : ((writesOf ops).flatMap PacketValue.encoding).length ≤ 16336) :
    ∃ last, packet.clear.runOps ops =
      some (last, (writesOf ops).take (readsOf ops).length) := by
  apply (Holds.clear packet).runOps
  · exact inOrder
  · exact Int.ofNat_le.mpr fits

/-- A string is written while a short is pending, and read while three bytes are. -/
def sampleOps : List PacketOp :=
  [.write (.scalar .short 700), .write (.string ⟨[97, 98], by decide, by decide⟩),
    .read (.scalar .short), .write (.bytes [1, 2, 3]), .read .string, .read (.bytes 3)]

theorem runOps_clear_sample :
    ∃ last, construct.clear.runOps sampleOps =
      some (last, [.scalar .short 700, .string ⟨[97, 98], by decide, by decide⟩,
        .bytes [1, 2, 3]]) := by
  have inOrder : InOrderBehind [] sampleOps := by
    apply InOrderBehind.cons_write
    apply InOrderBehind.cons_write
    apply InOrderBehind.cons_read
    apply InOrderBehind.cons_write
    apply InOrderBehind.cons_read
    apply InOrderBehind.cons_read
    exact InOrderBehind.nil
  exact runOps_clear construct inOrder (by decide)

end IOPacket

end SunPush
