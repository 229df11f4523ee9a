import SunPush.Socket.NetMsg

/-!
# Creating a message from a buffer

`CNetMsg::Create` compares the size it is given, cast to 16 bits, with the
result of the static `GetSize`, which is 0 for a buffer it does not accept.  The
result of the static `GetType` is unsigned and is compared with -1.
-/

namespace SunPush

open CInteger

namespace NetMsg

/-- The 16-bit word of a buffer at `offset`. -/
def word (buffer : Memory) (offset : Int) : Nat :=
  LittleEndian.decode (buffer.read offset 2)

/-- The tests that the static `GetSize` and `GetType` make first: `some buffer` if they go on to
read it. -/
def readable (pbufMsg : Option Memory) (msgSize : UInt32) : Option Memory :=
  match pbufMsg with
  | none => none
  | some buffer =>
      if toLong msgSize.toNat > getMaxSize then none
      else if msgSize ≤ 4 then none
      else some buffer

/-- `CNetMsg::GetType(pbufMsg, dwMsgSize)`. -/
def getTypeOf (pbufMsg : Option Memory) (msgSize : UInt32) : UInt16 :=
  match readable pbufMsg msgSize with
  | none => 0
  | some buffer => UInt16.ofNat (word buffer 2)

/-- `CNetMsg::GetSize(pbufMsg, dwMsgSize)`. -/
def getSizeOf (pbufMsg : Option Memory) (msgSize : UInt32) : UInt16 :=
  match readable pbufMsg msgSize with
  | none => 0
  | some buffer => UInt16.ofNat (word buffer 0 + packetHeaderLength)

/-- `CNetMsg::Create`. -/
def create (msg : NetMsg) (pbufMsg : Option Memory) (msgSize : UInt32) : Bool × NetMsg :=
  match pbufMsg with
  | none => (false, msg)
  | some buffer =>
      if msgSize.toUInt16 ≠ getSizeOf pbufMsg msgSize then (false, msg)
      else if (-1 : Int) = (getTypeOf pbufMsg msgSize).toNat then (false, msg)
      else (true, { msg with bufMsg := msg.bufMsg.copy 0 (fun i => buffer i) msgSize.toNat })

/-- The buffer is one frame of the given size. -/
def WellFormed (pbufMsg : Option Memory) (msgSize : UInt32) : Prop :=
  ∃ buffer, pbufMsg = some buffer ∧ 4 < msgSize.toNat ∧ msgSize.toNat ≤ maxMsgSize ∧
    word buffer 0 + 4 = msgSize.toNat

/-- `Create` accepts the frame if it is one, and copies it; otherwise it leaves the message. -/
structure CreatesFrames (msg : NetMsg) (pbufMsg : Option Memory) (msgSize : UInt32) : Prop where
  accepted : (msg.create pbufMsg msgSize).1 = true ↔ WellFormed pbufMsg msgSize
  copied : (msg.create pbufMsg msgSize).1 = true → ∃ buffer, pbufMsg = some buffer ∧
    msgSize.toNat ≤ maxMsgSize ∧
      (msg.create pbufMsg msgSize).2.bufMsg.read 0 msgSize.toNat = buffer.read 0 msgSize.toNat ∧
        ∀ address, address < 0 ∨ (msgSize.toNat : Int) ≤ address →
          (msg.create pbufMsg msgSize).2.bufMsg address = msg.bufMsg address
  unchanged : (msg.create pbufMsg msgSize).1 = false → (msg.create pbufMsg msgSize).2 = msg

/-- The size is none of those that `Create` takes for another one: not zero, no multiple of 65536
above the largest message, and no negative `int` whose low 16 bits are what the buffer declares. -/
structure Unmistaken (buffer : Memory) (msgSize : UInt32) : Prop where
  nonzero : msgSize.toNat ≠ 0
  large : maxMsgSize < msgSize.toNat → msgSize.toNat < 2 ^ 31 → msgSize.toNat % 2 ^ 16 ≠ 0
  negative : 2 ^ 31 ≤ msgSize.toNat →
    msgSize.toNat % 2 ^ 16 ≠ (word buffer 0 + 4) % 2 ^ 16

/-! ## What the comparison decides -/

section Buffer

variable (buffer : Memory) (msgSize : UInt32)

theorem word_lt (offset : Int) : word buffer offset < 2 ^ 16 := by
  have bound := LittleEndian.decode_lt (buffer.read offset 2)
  rwa [Memory.length_read] at bound

/-- The sizes for which the buffer is read: above 2 ^ 31 they are negative as an `int`. -/
def Reads : Prop :=
  4 < msgSize.toNat ∧ (msgSize.toNat ≤ maxMsgSize ∨ 2 ^ 31 ≤ msgSize.toNat)

theorem tooLarge_iff :
    toLong msgSize.toNat > getMaxSize ↔
      maxMsgSize < msgSize.toNat ∧ msgSize.toNat < 2 ^ 31 := by
  have bound := msgSize.toNat_lt
  rw [toLong_natCast bound, getMaxSize, maxMsgSize]
  split <;> omega

variable {msgSize}

theorem readable_of_reads (reads : Reads msgSize) :
    readable (some buffer) msgSize = some buffer := by
  have notLarge : ¬toLong msgSize.toNat > getMaxSize := by
    rw [tooLarge_iff]
    have range := reads.2
    omega
  have notSmall : ¬msgSize ≤ 4 := by
    rw [UInt32.le_iff_toNat_le, not_le]
    exact reads.1
  simp only [readable, if_neg notLarge, if_neg notSmall]

theorem readable_of_not_reads (unread : ¬Reads msgSize) :
    readable (some buffer) msgSize = none := by
  by_cases large : toLong msgSize.toNat > getMaxSize
  · simp only [readable, if_pos large]
  · have small : msgSize ≤ 4 := by
      rw [tooLarge_iff] at large
      rw [UInt32.le_iff_toNat_le]
      by_contra above
      apply unread
      refine ⟨not_le.mp above, ?_⟩
      omega
    simp only [readable, if_neg large, if_pos small]

variable (msgSize)

/-- The type that is compared with -1 is never negative. -/
theorem not_minus_one (pbufMsg : Option Memory) :
    (-1 : Int) ≠ (getTypeOf pbufMsg msgSize).toNat := by
  omega

theorem create_some (msg : NetMsg) :
    msg.create (some buffer) msgSize =
      if msgSize.toUInt16 = getSizeOf (some buffer) msgSize then
        (true, { msg with bufMsg := msg.bufMsg.copy 0 (fun i => buffer i) msgSize.toNat })
      else (false, msg) := by
  simp only [create, ne_eq, ite_not, if_neg (not_minus_one msgSize (some buffer))]

theorem create_accepted {msg : NetMsg} (accepted : (msg.create (some buffer) msgSize).1 = true) :
    (msg.create (some buffer) msgSize).2.bufMsg =
      msg.bufMsg.copy 0 (fun i => buffer i) msgSize.toNat := by
  rw [create_some] at accepted ⊢
  by_cases same : msgSize.toUInt16 = getSizeOf (some buffer) msgSize
  · rw [if_pos same]
  · rw [if_neg same] at accepted
    contradiction

theorem create_refused {msg : NetMsg} (refused : (msg.create (some buffer) msgSize).1 = false) :
    (msg.create (some buffer) msgSize).2 = msg := by
  rw [create_some] at refused ⊢
  by_cases same : msgSize.toUInt16 = getSizeOf (some buffer) msgSize
  · rw [if_pos same] at refused
    contradiction
  · rw [if_neg same]

theorem create_fst_iff (msg : NetMsg) :
    (msg.create (some buffer) msgSize).1 = true ↔
      msgSize.toNat % 2 ^ 16 = (getSizeOf (some buffer) msgSize).toNat := by
  rw [create_some, ← UInt32.toNat_toUInt16, UInt16.toNat_inj]
  split <;> simp [*]

variable {msgSize}

/-- A size that the buffer is read for is accepted if its low 16 bits are those the buffer
declares. -/
theorem create_fst_of_reads (msg : NetMsg) (reads : Reads msgSize) :
    (msg.create (some buffer) msgSize).1 = true ↔
      msgSize.toNat % 2 ^ 16 = (word buffer 0 + 4) % 2 ^ 16 := by
  rw [create_fst_iff, getSizeOf, readable_of_reads buffer reads]
  simp [packetHeaderLength]

/-- Any other size is accepted if its low 16 bits are zero. -/
theorem create_fst_of_not_reads (msg : NetMsg) (unread : ¬Reads msgSize) :
    (msg.create (some buffer) msgSize).1 = true ↔ msgSize.toNat % 2 ^ 16 = 0 := by
  rw [create_fst_iff, getSizeOf, readable_of_not_reads buffer unread]
  rfl

variable (msgSize)

/-- The low 16 bits tell the sizes apart exactly when the size is not mistaken. -/
theorem accepted_iff_unmistaken (msg : NetMsg) :
    ((msg.create (some buffer) msgSize).1 = true ↔ WellFormed (some buffer) msgSize) ↔
      Unmistaken buffer msgSize := by
  have wellFormed : WellFormed (some buffer) msgSize ↔ 4 < msgSize.toNat ∧
      msgSize.toNat ≤ maxMsgSize ∧ word buffer 0 + 4 = msgSize.toNat := by
    simp only [WellFormed, Option.some.injEq, exists_eq_left']
  have declared := word_lt buffer 0
  have largest : maxMsgSize = 8180 := rfl
  rw [wellFormed]
  by_cases reads : Reads msgSize
  · rw [create_fst_of_reads buffer msg reads]
    have range := reads
    rw [Reads] at range
    constructor
    · intro accepted
      refine ⟨by omega, by omega, ?_⟩
      intro negative same
      have wrong := accepted.mp same
      omega
    · intro unmistaken
      have negative := unmistaken.negative
      omega
  · rw [create_fst_of_not_reads buffer msg reads]
    have range := reads
    rw [Reads] at range
    constructor
    · intro accepted
      refine ⟨?_, ?_, by omega⟩
      · intro zero
        have wrong := accepted.mp (by omega)
        omega
      · intro above positive multiple
        have wrong := accepted.mp multiple
        omega
    · intro unmistaken
      have nonzero := unmistaken.nonzero
      have large := unmistaken.large
      omega

end Buffer

/-- `Create` accepts the well-formed frames alone exactly when the size is not mistaken. -/
theorem createsFrames_iff (msg : NetMsg) (pbufMsg : Option Memory) (msgSize : UInt32) :
    msg.CreatesFrames pbufMsg msgSize ↔
      ∀ buffer, pbufMsg = some buffer → Unmistaken buffer msgSize := by
  cases pbufMsg with
  | none =>
      apply iff_of_true
      · refine ⟨?_, ?_, fun _ => rfl⟩
        · simp [create, WellFormed]
        · intro accepted
          simp [create] at accepted
      · intro buffer absent
        contradiction
  | some buffer =>
      simp only [Option.some.injEq, forall_eq']
      rw [← accepted_iff_unmistaken buffer msgSize msg]
      constructor
      · exact CreatesFrames.accepted
      · intro accepted
        refine ⟨accepted, ?_, create_refused buffer msgSize⟩
        intro created
        rcases accepted.mp created with ⟨_, _, _, fits, _⟩
        have result := create_accepted buffer msgSize created
        refine ⟨buffer, rfl, fits, ?_, ?_⟩
        · rw [result, Memory.read_copy_self]
          simp only [Memory.read, Int.zero_add]
        · intro address outside
          rw [result]
          apply Memory.copy_outside
          rwa [Int.zero_add]

/-- A buffer of 65536 bytes is copied into the message. -/
theorem not_createsFrames_65536 :
    (getPoolMessage.create (some .zero) 65536).1 = true ∧
      ¬getPoolMessage.CreatesFrames (some .zero) 65536 := by
  have created : (getPoolMessage.create (some .zero) 65536).1 = true := by
    rw [create_fst_iff]
    decide
  refine ⟨created, ?_⟩
  intro creates
  rcases creates.copied created with ⟨_, _, fits, _⟩
  exact absurd fits (by decide)

end NetMsg

end SunPush
