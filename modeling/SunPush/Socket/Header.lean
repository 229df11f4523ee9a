import SunPush.Socket.Outgoing

/-!
# The length in a frame's header

`PACKET_HEADER` starts with the 32-bit `m_nDataLength`.  `Send` fills it with a
copy of four bytes from its 16-bit parameter, so the upper half of the header is
what lies behind the parameter.  The receiver in `Session.cpp` keeps 16 bits of
the length; the Java and PHP receivers use all 32.
-/

namespace SunPush

/-- The block of a buffer that starts with its own length in 32 bits, then carries the payload. -/
def CarriesFrame (buffer : Memory) (data : Nat → UInt8) (length : Nat) : Prop :=
  LittleEndian.decode (buffer.read 0 4) = length ∧
    buffer.read 4 length = (List.range length).map data

theorem decode_wordBytes (length : UInt16) (beyond : Nat → UInt8) :
    LittleEndian.decode ((List.range 4).map (wordBytes length.toNat beyond)) =
      length.toNat + 2 ^ 16 * (beyond 0).toNat + 2 ^ 24 * (beyond 1).toNat := by
  have bounded := length.toNat_lt
  have low : (UInt8.ofNat length.toNat).toNat = length.toNat % 256 := by simp
  have high : (UInt8.ofNat (length.toNat / 256)).toNat = length.toNat / 256 := by
    simp only [UInt8.toNat_ofNat']
    omega
  change (UInt8.ofNat length.toNat).toNat + 256 * ((UInt8.ofNat (length.toNat / 256)).toNat +
    256 * ((beyond 0).toNat + 256 * ((beyond 1).toNat + 256 * 0))) = _
  rw [low, high]
  omega

theorem send_accepted {length : UInt16} (fits : length.toNat ≤ maxMsgSize)
    (data : Nat → UInt8) (beyond : Nat → UInt8) :
    (send false true data length beyond).sent = some ((length.toNat : Int) + 4) := by
  simp [send, Nat.not_lt.mpr fits]

/-- An accepted frame carries its length and its payload exactly when the two bytes behind the
16-bit parameter are zero. -/
theorem carriesFrame_send_iff (length : UInt16) (data : Nat → UInt8) (beyond : Nat → UInt8)
    (stack : Memory) (fits : length.toNat ≤ maxMsgSize - 4) :
    CarriesFrame ((send false true data length beyond).sendBuf stack) data length.toNat ↔
      beyond 0 = 0 ∧ beyond 1 = 0 := by
  have accepted := send_accepted (fits.trans (Nat.sub_le _ _)) data beyond
  have block := Outgoing.read_sendBuf accepted stack
  have total : ((length.toNat : Int) + 4).toNat = 4 + length.toNat := by omega
  rw [total, Memory.read_add, Outgoing.frame] at block
  have parts := List.append_inj block (by simp)
  rw [CarriesFrame, parts.1, decode_wordBytes]
  constructor
  · rintro ⟨own, _⟩
    constructor
    · apply UInt8.toNat_inj.mp
      change (beyond 0).toNat = 0
      omega
    · apply UInt8.toNat_inj.mp
      change (beyond 1).toNat = 0
      omega
  · rintro ⟨first, second⟩
    refine ⟨?_, parts.2⟩
    simp [first, second]

theorem carriesFrame_send_login :
    CarriesFrame ((send false true (fun _ => 1) 2 fun _ => 0).sendBuf Memory.zero)
      (fun _ => 1) 2 :=
  (carriesFrame_send_iff 2 (fun _ => 1) (fun _ => 0) Memory.zero (by decide)).mpr ⟨rfl, rfl⟩

/-- With a byte of 1 behind the parameter a header announces 65538 bytes for a payload of two. -/
theorem not_carriesFrame_send :
    ¬CarriesFrame ((send false true (fun _ => 1) 2 fun _ => 1).sendBuf Memory.zero)
      (fun _ => 1) 2 := by
  rintro ⟨own, _⟩
  revert own
  decide

end SunPush
