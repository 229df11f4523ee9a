import SunPush.Socket.PacketCursors

/-!
# Reading what somebody else has written

The bytes of a packet may be anything.  A read of a value checks that it is there
and then moves the cursor.  `ReadString` first consumes the length, which the
data state, and does not take that back when it throws; a negative length moves
the cursor backwards, and nothing says that a string ends before the data do.

What `ReadString` returns is a pointer to characters that end at the first NUL.
-/

namespace SunPush

open CInteger

namespace IOPacket

/-- The calls that read a value or a string. -/
inductive ReadCall where
  | readTyped (type : ScalarType)
  | readPointer
  | readString

/-- The address is one of the `size` bytes from the position on. -/
def InBlock (position : Int) (size : Nat) (address : Int) : Prop :=
  position ≤ address ∧ address < position + size

/-- The address is one of the characters that are found at the position, up to the first NUL. -/
def InString (szBuffer : Memory) (position address : Int) : Prop :=
  position ≤ address ∧ ∀ before, position ≤ before → before < address → szBuffer before ≠ 0

/-- The addresses of the returned bytes, `none` when the call throws; and the packet after it. -/
def readResult (packet : IOPacket) : ReadCall → Option (Int → Prop) × IOPacket
  | .readTyped type =>
      match packet.readTyped type with
      | none => (none, packet)
      | some (_, after) => (some (InBlock packet.read type.size), after)
  | .readPointer =>
      match packet.readPointer with
      | none => (none, packet)
      | some (_, after) => (some (InBlock packet.read 4), after)
  | .readString => (packet.readString.1.map (InString packet.szBuffer), packet.readString.2)

/-- Every returned byte has been written and not been read, the cursor does not move backwards, and
if the call throws it changes nothing. -/
def SafeRead (packet : IOPacket) (call : ReadCall) : Prop :=
  match packet.readResult call with
  | (none, after) => after = packet
  | (some returned, after) =>
      (∀ address, returned address →
        packet.readLength ≤ address ∧ address < packet.writeLength) ∧
      packet.readLength ≤ after.readLength ∧ packet.read ≤ after.read

/-- The length that the data state for the string. -/
def statedLength (packet : IOPacket) : Int :=
  (BitVec.ofNat 16 (LittleEndian.decode (packet.szBuffer.read packet.read 2))).toInt

/-- There is no length to read, or it is at least -2 and fits what is left behind it, and a NUL is
left there. -/
def ReadsInside (packet : IOPacket) : ReadCall → Prop
  | .readString =>
      packet.readLeavings < 2 ∨
        -2 ≤ packet.statedLength ∧ packet.statedLength + 2 ≤ packet.readLeavings ∧
          ∃ address, packet.readLength + 2 ≤ address ∧ address < packet.writeLength ∧
            packet.szBuffer address = 0
  | _ => True

/-! ## What each read does -/

section Reads

variable {packet : IOPacket}

/-- The packet behind a skip for which there is enough left. -/
def skipped (packet : IOPacket) (length : Int) : IOPacket :=
  { packet with
    read := packet.read + length
    readLength := packet.readLength + length
    readLeavings := packet.readLeavings - length }

theorem readSkip_eq (packet : IOPacket) (length : Int) :
    packet.readSkip length =
      if packet.readLeavings < length then none else some (packet.skipped length) := by
  have short : packet.readLeavings - length < 0 ↔ packet.readLeavings < length := by omega
  simp only [readSkip, short, skipped]

theorem readScalar_eq (packet : IOPacket) (width : Nat) :
    packet.readScalar width =
      if packet.readLeavings < width then none
      else some (.ofNat _ (LittleEndian.decode (packet.szBuffer.read packet.read width)),
        packet.skipped width) := by
  rw [readScalar, readSkip_eq]
  split <;> rfl

/-- A block that is left lies within what has been written and not been read. -/
theorem inside_of_enough (consistent : packet.Consistent) {size : Nat} {address : Int}
    (enough : size ≤ packet.readLeavings) (inBlock : InBlock packet.read size address) :
    packet.readLength ≤ address ∧ address < packet.writeLength := by
  rcases inBlock with ⟨lower, upper⟩
  rw [consistent.read_eq] at lower upper
  rw [consistent.readLeavings_eq] at enough
  exact ⟨lower, by omega⟩

theorem safeRead_of_enough (consistent : packet.Consistent) {call : ReadCall} {size : Nat}
    (reads : packet.readResult call =
      if packet.readLeavings < size then (none, packet)
      else (some (InBlock packet.read size), packet.skipped size)) : packet.SafeRead call := by
  by_cases short : packet.readLeavings < size
  · rw [if_pos short] at reads
    simp only [SafeRead, reads]
  · rw [if_neg short] at reads
    simp only [SafeRead, reads, skipped]
    refine ⟨fun address => inside_of_enough consistent (Int.not_lt.mp short), ?_, ?_⟩
    · exact Int.le_add_of_nonneg_right (Int.natCast_nonneg _)
    · exact Int.le_add_of_nonneg_right (Int.natCast_nonneg _)

theorem safeRead_readTyped (consistent : packet.Consistent) (type : ScalarType) :
    packet.SafeRead (.readTyped type) := by
  refine @safeRead_of_enough packet consistent _ type.size ?_
  rw [readResult, readTyped_eq, readScalar_eq]
  by_cases short : packet.readLeavings < type.size
  · simp only [if_pos short]
  · simp only [if_neg short]

theorem safeRead_readPointer (consistent : packet.Consistent) : packet.SafeRead .readPointer := by
  have reads : packet.readPointer = _ := readScalar_eq packet 4
  refine @safeRead_of_enough packet consistent _ 4 ?_
  rw [readResult, reads]
  by_cases short : packet.readLeavings < (4 : Nat)
  · simp only [if_pos short]
  · simp only [if_neg short]

/-- What `ReadString` does: it throws at once, throws behind the length, or moves behind the string
that the length states. -/
theorem readString_eq (packet : IOPacket) :
    packet.readString =
      if packet.readLeavings < 2 then (none, packet)
      else if packet.readLeavings - 2 < packet.statedLength then (none, packet.skipped 2)
      else (some (packet.read + 2), (packet.skipped 2).skipped packet.statedLength) := by
  have short : packet.readShort =
      if packet.readLeavings < 2 then none
      else some (.ofNat 16 (LittleEndian.decode (packet.szBuffer.read packet.read 2)),
        packet.skipped 2) := readScalar_eq packet 2
  rw [readString, short]
  by_cases none_left : packet.readLeavings < 2
  · simp only [if_pos none_left]
  · simp only [if_neg none_left]
    have left : (packet.skipped 2).readLeavings = packet.readLeavings - 2 := rfl
    have stated : (BitVec.ofNat 16 (LittleEndian.decode
      (packet.szBuffer.read packet.read 2))).toInt = packet.statedLength := rfl
    rw [left, stated, readSkip_eq, left]
    by_cases longer : packet.readLeavings - 2 < packet.statedLength
    · simp only [if_pos longer]
    · simp only [if_neg longer]
      rfl

/-- The characters up to the first NUL lie within what has been written exactly when there is a
NUL. -/
theorem string_inside_iff {szBuffer : Memory} {start position stop : Int}
    (start_le : start ≤ position) (position_le : position ≤ stop) :
    (∀ address, InString szBuffer position address → start ≤ address ∧ address < stop) ↔
      ∃ address, position ≤ address ∧ address < stop ∧ szBuffer address = 0 := by
  constructor
  · intro inside
    by_contra unended
    push Not at unended
    have all : InString szBuffer position stop := ⟨position_le, unended⟩
    exact Int.lt_irrefl _ (inside stop all).2
  · rintro ⟨nul, lower, upper, ends⟩ address ⟨position_le_address, before⟩
    refine ⟨Int.le_trans start_le position_le_address, ?_⟩
    by_contra beyond
    exact before nul lower (by omega) ends

theorem skipped_ne (packet : IOPacket) : packet.skipped 2 ≠ packet := by
  intro same
  have moved : packet.read + 2 = packet.read := congrArg IOPacket.read same
  omega

theorem safeRead_readString_iff (consistent : packet.Consistent) :
    packet.SafeRead .readString ↔ packet.ReadsInside .readString := by
  have readLeavings := consistent.readLeavings_eq
  have reads := readString_eq packet
  simp only [SafeRead, readResult, ReadsInside]
  by_cases missing : packet.readLeavings < 2
  · rw [if_pos missing] at reads
    simp only [reads, Option.map_none]
    exact iff_of_true trivial (.inl missing)
  · rw [if_neg missing] at reads
    rw [or_iff_right missing]
    by_cases longer : packet.readLeavings - 2 < packet.statedLength
    · rw [if_pos longer] at reads
      simp only [reads, Option.map_none]
      refine iff_of_false (skipped_ne packet) ?_
      rintro ⟨-, fits, -⟩
      omega
    · rw [if_neg longer] at reads
      have start_le : packet.readLength ≤ packet.readLength + 2 := by omega
      have position_le : packet.readLength + 2 ≤ packet.writeLength := by omega
      simp only [reads, Option.map_some, consistent.read_eq, skipped,
        string_inside_iff start_le position_le]
      constructor
      · rintro ⟨ends, forwards, -⟩
        exact ⟨by omega, by omega, ends⟩
      · rintro ⟨forwards, -, ends⟩
        exact ⟨ends, by omega, by omega⟩

end Reads

/-- Exactly when a string's stated length is at least -2 and fits, and the string ends within the
data, or there is not even a length, reading is safe; values are always read safely. -/
theorem safeRead_iff {packet : IOPacket} (consistent : packet.Consistent) (call : ReadCall) :
    packet.SafeRead call ↔ packet.ReadsInside call := by
  cases call with
  | readTyped type => exact iff_of_true (safeRead_readTyped consistent type) trivial
  | readPointer => exact iff_of_true (safeRead_readPointer consistent) trivial
  | readString => exact safeRead_readString_iff consistent

/-- A string that has been written is read safely.  A length of -5 in front of other bytes moves the
cursor backwards. -/
theorem safeRead_written :
    ∃ written hostile,
      construct.writeString (some ⟨[97, 98], by decide, by decide⟩) = some written ∧
      written.SafeRead .readString ∧
      (construct.writeShort (-5)).bind (fun packet => packet.writeLong 0) = some hostile ∧
      ¬hostile.SafeRead .readString := by
  have string : (construct.store [3, 0]).Consistent :=
    consistent_construct.store (by decide)
  have short : (construct.store [0xFB, 0xFF]).Consistent :=
    consistent_construct.store (by decide)
  refine ⟨(construct.store [3, 0]).store [97, 98, 0],
    (construct.store [0xFB, 0xFF]).store [0, 0, 0, 0], rfl, ?_, rfl, ?_⟩
  · have consistent := @Consistent.store _ string [97, 98, 0] (by decide)
    refine (safeRead_iff consistent .readString).mpr (.inr ⟨by decide, by decide, 4, ?_⟩)
    decide
  · have consistent := @Consistent.store _ short [0, 0, 0, 0] (by decide)
    rw [safeRead_iff consistent .readString]
    rintro (short | ⟨forwards, -⟩)
    · exact absurd short (by decide)
    · exact absurd forwards (by decide)

/-- A packet holds nothing but a length of 100: reading the string throws, and has consumed the
length. -/
theorem consumes_length_and_throws :
    ∃ packet, construct.writeShort 100 = some packet ∧ packet.Consistent ∧
      ¬packet.SafeRead .readString := by
  have written : construct.writeShort 100 =
    some (construct.store (LittleEndian.encode 2 100)) := rfl
  have consistent := consistent_construct.writeScalar written
  refine ⟨_, written, consistent, ?_⟩
  rw [safeRead_readString_iff consistent]
  rintro (short | ⟨-, fits, -⟩)
  · exact absurd short (by decide)
  · exact absurd fits (by decide)

end IOPacket

end SunPush
