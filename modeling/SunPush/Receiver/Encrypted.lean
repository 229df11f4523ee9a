import SunPush.Receiver.BigBuffer
import SunPush.Socket.Outgoing

/-!
# The encrypted transport

`Session::Send` of the builds with `USE_ENCRYPT_DATA` encrypts what it is handed,
header and payload, in one moving call.  The only receive path that decrypts is
that of `_BIG_BUFFER_MODE`: it decrypts two header bytes without moving, and
moves over the payload alone.
-/

namespace SunPush

open MessageEncrypt (InStep)

/-- A message handed to `Send`: its payload, and the bytes behind the 16-bit parameter. -/
structure SentMessage where
  payload : List UInt8
  beyond : Nat → UInt8

namespace SentMessage

/-- The bytes `Send` hands to `Session::Send`. -/
def frame (message : SentMessage) : List UInt8 :=
  Outgoing.frame (fun i => message.payload.getD i 0) (UInt16.ofNat message.payload.length)
    message.beyond

/-- The payload leaves room for its header in the buffer `Session::Send` encrypts in. -/
def Fits (message : SentMessage) : Prop :=
  message.payload.length + 4 ≤ packetBufferSize

instance (message : SentMessage) : Decidable message.Fits :=
  inferInstanceAs (Decidable (_ ≤ _))

theorem length_frame {message : SentMessage} (fits : message.Fits) :
    message.frame.length = (SunPush.frame message.payload).length := by
  simp only [Fits, packetBufferSize] at fits
  have kept : (UInt16.ofNat message.payload.length).toNat = message.payload.length := by
    rw [UInt16.toNat_ofNat']
    exact Nat.mod_eq_of_lt (by omega)
  rw [frame, Outgoing.frame, kept, List.length_append, List.length_map, List.length_range,
    List.length_map, List.length_range, SunPush.length_frame]

end SentMessage

/-- `Session::Send` with `USE_ENCRYPT_DATA`: the cipher afterwards and the bytes written. -/
def encryptedSend (encryptSend : MessageEncrypt) (data : List UInt8) :
    MessageEncrypt × List UInt8 :=
  encryptSend.encrypt data true

/-- The cipher and the stream after a list of messages. -/
def encryptedStream : MessageEncrypt → List SentMessage → MessageEncrypt × List UInt8
  | encryptSend, [] => (encryptSend, [])
  | encryptSend, message :: messages =>
      let first := encryptedSend encryptSend message.frame
      let rest := encryptedStream first.1 messages
      (rest.1, first.2 ++ rest.2)

theorem length_encryptedStream {messages : List SentMessage}
    (fits : ∀ message ∈ messages, message.Fits) (encryptSend : MessageEncrypt) :
    (encryptedStream encryptSend messages).2.length =
      (wire (messages.map SentMessage.payload)).length := by
  induction messages generalizing encryptSend with
  | nil => rfl
  | cons message messages ih =>
      have rest := ih fun other other_mem => fits other (List.mem_cons_of_mem message other_mem)
      have first := SentMessage.length_frame (fits message List.mem_cons_self)
      simp only [encryptedStream, encryptedSend, MessageEncrypt.encrypt, List.map_cons, wire_cons,
        List.length_append, rest, MessageEncrypt.encryptLoop_eq, StreamCipher.length_translate,
        first]

namespace BigSession

/-- The receiver delivers the payloads in plaintext, and its cipher ends where the sender's does. -/
def ReceivesPlain (data : Memory) (messages : List SentMessage) (chunks : List (List UInt8)) :
    Prop :=
  ((start data).run true chunks).delivered = messages.map SentMessage.payload ∧
    InStep (encryptedStream .construct messages).1
      ((start data).run true chunks).session.encryptRecv

/-- Whatever the division of the encrypted stream, only the empty sequence of messages is received
in plaintext. -/
theorem receivesPlain_iff {messages : List SentMessage}
    (fit : ∀ message ∈ messages, message.Fits) (data : Memory) {chunks : List (List UInt8)}
    (fits : (start data).Fits true chunks)
    (flattened : chunks.flatten = (encryptedStream .construct messages).2) :
    ReceivesPlain data messages chunks ↔ messages = [] := by
  constructor
  · rintro ⟨delivered, _⟩
    have length : chunks.flatten.length = (wire (messages.map SentMessage.payload)).length := by
      rw [flattened, length_encryptedStream fit]
    exact List.map_eq_nil_iff.mp (eq_nil_of_delivered true length delivered)
  · intro none
    subst none
    have stopped := chunks_eq_nil true fits flattened
    subst stopped
    exact ⟨rfl, InStep.refl _⟩

/-- A message of one byte, with zeros behind the parameter. -/
def oneByte : SentMessage where
  payload := [7]
  beyond _ := 0

theorem encryptedStream_oneByte :
    (encryptedStream .construct [oneByte]).2 = [28, 63, 3, 81, 129] := by
  decide +kernel

def twoBytes : SentMessage where
  payload := [8, 9]
  beyond _ := 0

/-- Two messages, the header of the first divided between two completions; and no message. -/
theorem receivesPlain_iff_two_messages :
    ¬ReceivesPlain Memory.zero [oneByte, twoBytes]
        [[28, 63, 3], [81, 129, 8, 97, 97, 143, 216, 99]] ∧
      ReceivesPlain Memory.zero [] [] := by
  have fits : (start Memory.zero).Fits true [[28, 63, 3], [81, 129, 8, 97, 97, 143, 216, 99]] :=
    ⟨⟨by decide, by decide +kernel⟩, ⟨by decide, by decide +kernel⟩, trivial⟩
  constructor
  · rw [receivesPlain_iff (by decide) Memory.zero fits (by decide +kernel)]
    exact List.cons_ne_nil _ _
  · have nothing : (start Memory.zero).Fits true [] := trivial
    exact (receivesPlain_iff (by decide) Memory.zero nothing rfl).mpr rfl

/-- One message of one byte, whose encrypted frame arrives in one completion. -/
theorem not_receivesPlain_oneByte :
    oneByte.Fits ∧ (start Memory.zero).Fits true [[28, 63, 3, 81, 129]] ∧
      [[28, 63, 3, 81, 129]].flatten = (encryptedStream .construct [oneByte]).2 ∧
      ¬ReceivesPlain Memory.zero [oneByte] [[28, 63, 3, 81, 129]] := by
  refine ⟨by decide, fits_first true Memory.zero (by decide) (by decide),
    encryptedStream_oneByte.symm, ?_⟩
  rintro ⟨delivered, _⟩
  have none := eq_nil_of_delivered true (by decide) delivered
  contradiction

end BigSession

end SunPush
