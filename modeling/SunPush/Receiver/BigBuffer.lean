import SunPush.Socket.IOPacket
import SunPush.Socket.MessageEncrypt
import SunPush.Receiver.Framing

/-!
# The big-buffer receiver

`Session::handle_read` from `Session.cpp`, the receive path of the builds with
`_BIG_BUFFER_MODE`, with and without `USE_ENCRYPT_DATA`.  What arrives is
appended to an `IOPacket`; a loop takes whole messages off its front and moves
the rest to the front.  The assertion on the length is absent, as in a release
build.

The loop takes `sizeof(PACKET_HEADER)` bytes for a header and checks that
`PACKET_HEADER_LENGTH` have arrived.  The two differ, so no stream of frames
holds as many bytes as the loop takes for its payloads.
-/

namespace SunPush

open CInteger

/-- `PACKET_BUFFER_SIZE`, the size of `Session::data_`. -/
def packetBufferSize : Nat := 8192 - 48

/-- `sizeof(PACKET_HEADER)`: an `unsigned int` and two `unsigned short` fields. -/
def sizeofPacketHeader : Nat := 8

/-- A session in `_BIG_BUFFER_MODE`, as its receiver sees it.  Once it is closed it has neither an
acceptor nor a connector.  `outstanding` is the number of bytes the posted receive asks for. -/
structure BigSession where
  data : Memory
  readBuffer : IOPacket
  encryptRecv : MessageEncrypt
  closed : Bool
  outstanding : Option Nat

/-- What a call of `handle_read` leaves behind: the session, the messages passed to
`OnReadComplete`, and whether an exception left the call. -/
structure HandledRead where
  session : BigSession
  delivered : List (List UInt8)
  threw : Bool

/-- How one turn of the loop ends. -/
inductive Turn where
  /-- More bytes are needed: a receive is posted. -/
  | waits (session : BigSession)
  /-- `handle_exit` has been called. -/
  | exits (session : BigSession)
  /-- `ReadSkip` has thrown. -/
  | throws (session : BigSession)
  /-- A message has been taken; the loop continues or a receive is posted. -/
  | takes (session : BigSession) (message : List UInt8) (continues : Bool)

namespace BigSession

/-- `socket_.async_receive(boost::asio::buffer(data_, read_buffer_.GetWriteLeavings()), …)` -/
def receive (session : BigSession) : BigSession :=
  { session with outstanding := some (min packetBufferSize session.readBuffer.writeLeavings.toNat) }

/-- The session `Session::start` leaves; `data` is what `data_` held. -/
def start (data : Memory) : BigSession :=
  receive ⟨data, .construct, .construct, false, none⟩

/-- `handle_exit`, also for the two calls of `Close()` that lack the argument of its declaration
and are read as `Close(0)`. -/
def exit (session : BigSession) : BigSession := { session with closed := true }

/-- `pHeader->m_nDataLength` in 16 bits. -/
def rawSize (session : BigSession) : Nat :=
  toUInt16 (LittleEndian.decode (session.readBuffer.szBuffer.read 0 4))

/-- `nMessageSize`, decrypted in place without moving the cipher. -/
def messageSize (useEncryptData : Bool) (session : BigSession) : BigSession × Nat :=
  if useEncryptData then
    let peeked := session.encryptRecv.decrypt (LittleEndian.encode 2 session.rawSize) false
    ({ session with encryptRecv := peeked.1 }, LittleEndian.decode peeked.2)
  else (session, session.rawSize)

/-- Step 3: read a header and `size` bytes, and decrypt them; `none` when a read throws. -/
def takeMessage (useEncryptData : Bool) (session : BigSession) (size : Nat) :
    Option (BigSession × List UInt8) := do
  let (_, packet) ← session.readBuffer.resetReadPos.readCharArray sizeofPacketHeader
  let session := if maxMsgSize < size then session.exit else session
  let (position, packet) ← packet.readCharArray size
  let body := packet.szBuffer.read position size
  if useEncryptData then
    let plain := session.encryptRecv.decrypt body true
    return ({ session with readBuffer := packet, encryptRecv := plain.1 }, plain.2)
  else return ({ session with readBuffer := packet }, body)

/-- Step 4: move what is left behind a message of `size` bytes to the front of the buffer. -/
def compact (session : BigSession) (size : Nat) : BigSession :=
  let leaving := session.readBuffer.readLeavings
  if 0 < leaving then
    let data := session.data.copy 0
      (fun i => session.readBuffer.szBuffer (size + sizeofPacketHeader + i)) leaving.toNat
    let packet := session.readBuffer.clear
    { session with data, readBuffer := (packet.writeCharArray data leaving).getD packet }
  else { session with readBuffer := session.readBuffer.clear }

/-- `memset(data_, 0xCC, sizeof(data_))` and the receive behind it. -/
def receiveFresh (session : BigSession) : BigSession :=
  receive { session with data := session.data.copy 0 (fun _ => 0xCC) packetBufferSize }

/-- Steps 3 to 5 for a message of `size` bytes. -/
def unpack (useEncryptData : Bool) (session : BigSession) (size : Nat) : Turn :=
  match session.takeMessage useEncryptData size with
  | none => .throws session
  | some (session, message) =>
      let leaving := session.readBuffer.readLeavings
      let session := session.compact size
      if packetHeaderLength ≤ leaving then
        let (session, next) := session.messageSize useEncryptData
        if next ≤ leaving then .takes session message true
        else .takes session.receiveFresh message false
      else .takes session.receiveFresh message false

/-- One turn of `while(true)`. -/
def turn (useEncryptData : Bool) (session : BigSession) : Turn :=
  if session.readBuffer.readLeavings < packetHeaderLength then .waits session.receive
  else
    let session := if session.rawSize = 0 then session.exit else session
    let (session, size) := session.messageSize useEncryptData
    if packetBufferSize < size then .exits session.exit
    else if session.readBuffer.writeLength < size + packetHeaderLength then .waits session.receive
    else session.unpack useEncryptData size

/-- `OnReadComplete` is called through the acceptor or the connector, if there still is one. -/
def onReadComplete (session : BigSession) (message : List UInt8) : List (List UInt8) :=
  if session.closed then [] else [message]

/-! ## What a turn takes off the buffer -/

variable (useEncryptData : Bool)

theorem readBuffer_messageSize (session : BigSession) :
    (session.messageSize useEncryptData).1.readBuffer = session.readBuffer := by
  cases useEncryptData with
  | false => rfl
  | true => rfl

variable {useEncryptData} in
/-- A message of `size` bytes takes a header of eight bytes with it. -/
theorem takeMessage_spec {session after : BigSession} {size : Nat} {message : List UInt8}
    (takes : session.takeMessage useEncryptData size = some (after, message)) :
    message.length = size ∧ 0 ≤ after.readBuffer.readLeavings ∧
      after.readBuffer.readLeavings =
        session.readBuffer.writeLength - (size + sizeofPacketHeader) := by
  simp only [takeMessage, Option.bind_eq_bind, Option.bind_eq_some_iff, Prod.exists] at takes
  rcases takes with ⟨_, header, headerRead, position, packet, bodyRead, result⟩
  have skipped := IOPacket.readLeavings_readCharArray headerRead
  have left := IOPacket.readLeavings_readCharArray bodyRead
  rw [skipped.1, IOPacket.readLeavings_resetReadPos] at left
  cases useEncryptData with
  | false =>
      simp only [Bool.false_eq_true, if_false, Option.pure_def, Option.some.injEq,
        Prod.mk.injEq] at result
      rcases result with ⟨rfl, rfl⟩
      exact ⟨Memory.length_read _ _ _, left.2, by rw [left.1]; omega⟩
  | true =>
      simp only [if_true, Option.pure_def, Option.some.injEq, Prod.mk.injEq] at result
      rcases result with ⟨rfl, rfl⟩
      refine ⟨?_, left.2, by rw [left.1]; omega⟩
      rw [MessageEncrypt.decrypt, MessageEncrypt.decryptLoop_eq]
      simp

theorem writeLength_compact (session : BigSession) (size : Nat)
    (nonneg : 0 ≤ session.readBuffer.readLeavings) :
    0 ≤ (session.compact size).readBuffer.writeLength ∧
      (session.compact size).readBuffer.writeLength ≤ session.readBuffer.readLeavings := by
  by_cases some : 0 < session.readBuffer.readLeavings
  · simp only [compact, if_pos some]
    cases writes : session.readBuffer.clear.writeCharArray (session.data.copy 0
        (fun i => session.readBuffer.szBuffer (size + sizeofPacketHeader + i))
        session.readBuffer.readLeavings.toNat) session.readBuffer.readLeavings with
    | none =>
        rw [Option.getD_none, IOPacket.writeLength_clear]
        exact ⟨Int.le_refl 0, nonneg⟩
    | some packet =>
        rw [Option.getD_some, IOPacket.writeLength_writeCharArray writes,
          IOPacket.writeLength_clear, Int.zero_add]
        exact ⟨nonneg, Int.le_refl _⟩
  · simp only [compact, if_neg some, IOPacket.writeLength_clear]
    exact ⟨Int.le_refl 0, nonneg⟩

/-- What a turn does to the buffer: it takes a message and eight bytes off it, or leaves it. -/
def Accounts (before : IOPacket) : Turn → Prop
  | .waits after => after.readBuffer = before
  | .exits after => after.readBuffer = before
  | .throws after => after.readBuffer = before
  | .takes after message _ =>
      0 ≤ after.readBuffer.writeLength ∧
        after.readBuffer.writeLength + (message.length + sizeofPacketHeader) ≤ before.writeLength

theorem accounts_unpack (session : BigSession) (size : Nat) :
    Accounts session.readBuffer (session.unpack useEncryptData size) := by
  cases taken : session.takeMessage useEncryptData size with
  | none =>
      simp only [unpack, taken]
      rfl
  | some result =>
      rcases result with ⟨packet, message⟩
      have spec := takeMessage_spec taken
      have moved := writeLength_compact packet size spec.2.1
      have counted (after : BigSession) (continues : Bool)
          (same : after.readBuffer = (packet.compact size).readBuffer) :
          Accounts session.readBuffer (.takes after message continues) := by
        simp only [Accounts, same, spec.1]
        exact ⟨moved.1, by omega⟩
      simp only [unpack, taken]
      by_cases header : (packetHeaderLength : Int) ≤ packet.readBuffer.readLeavings
      · rw [if_pos header]
        by_cases whole : (((packet.compact size).messageSize useEncryptData).2 : Int) ≤
            packet.readBuffer.readLeavings
        · rw [if_pos whole]
          exact counted _ _ (readBuffer_messageSize useEncryptData _)
        · rw [if_neg whole]
          exact counted _ _ (readBuffer_messageSize useEncryptData _)
      · rw [if_neg header]
        exact counted _ _ rfl

theorem accounts_turn (session : BigSession) :
    Accounts session.readBuffer (session.turn useEncryptData) := by
  have opened : (if session.rawSize = 0 then session.exit else session).readBuffer =
      session.readBuffer := by
    split <;> rfl
  simp only [turn]
  generalize (if session.rawSize = 0 then session.exit else session) = ready at opened ⊢
  have measured := readBuffer_messageSize useEncryptData ready
  rw [opened] at measured
  by_cases header : session.readBuffer.readLeavings < packetHeaderLength
  · rw [if_pos header]
    rfl
  · rw [if_neg header]
    by_cases large : packetBufferSize < (ready.messageSize useEncryptData).2
    · rw [if_pos large]
      exact measured
    · rw [if_neg large]
      by_cases part : (ready.messageSize useEncryptData).1.readBuffer.writeLength <
          (ready.messageSize useEncryptData).2 + packetHeaderLength
      · rw [if_pos part]
        exact measured
      · rw [if_neg part, ← measured]
        exact accounts_unpack useEncryptData _ _

/-- `while(true)` -/
def loop (useEncryptData : Bool) (session : BigSession) : HandledRead :=
  match _taken : session.turn useEncryptData with
  | .waits after => ⟨after, [], false⟩
  | .exits after => ⟨after, [], false⟩
  | .throws after => ⟨after, [], true⟩
  | .takes after message false => ⟨after, after.onReadComplete message, false⟩
  | .takes after message true =>
      let rest := loop useEncryptData after
      { rest with delivered := after.onReadComplete message ++ rest.delivered }
termination_by session.readBuffer.writeLength.toNat
decreasing_by
  have shorter := accounts_turn useEncryptData session
  simp only [_taken, Accounts, sizeofPacketHeader] at shorter
  omega

/-- `Session::handle_read`, told that `bytes` have arrived in `data_`. -/
def handleRead (useEncryptData : Bool) (session : BigSession) (error : Bool)
    (bytes : List UInt8) : HandledRead :=
  if session.closed then ⟨session, [], false⟩
  else if error then ⟨session.exit, [], false⟩
  else
    let session := { session with data := session.data.write 0 bytes }
    match session.readBuffer.writeCharArray session.data bytes.length with
    | none => ⟨session.exit, [], false⟩
    | some packet => loop useEncryptData { session with readBuffer := packet }

/-- Complete the outstanding receive, if there is one, with the bytes of a chunk. -/
def complete (useEncryptData : Bool) (session : BigSession) (chunk : List UInt8) : HandledRead :=
  match session.outstanding with
  | none => ⟨session, [], false⟩
  | some _ => handleRead useEncryptData { session with outstanding := none } false chunk

/-- The session after a list of chunks, all it has delivered, and whether any call threw. -/
def run (useEncryptData : Bool) : BigSession → List (List UInt8) → HandledRead
  | session, [] => ⟨session, [], false⟩
  | session, chunk :: chunks =>
      let first := session.complete useEncryptData chunk
      let rest := run useEncryptData first.session chunks
      ⟨rest.session, first.delivered ++ rest.delivered, first.threw || rest.threw⟩

/-- Every chunk has at least one byte, and no more than the outstanding receive asks for. -/
def Fits (useEncryptData : Bool) : BigSession → List (List UInt8) → Prop
  | _, [] => True
  | session, chunk :: chunks =>
      (1 ≤ chunk.length ∧ ∀ requested ∈ session.outstanding, chunk.length ≤ requested) ∧
        Fits useEncryptData (session.complete useEncryptData chunk).session chunks

/-! ## What a run takes off the stream -/

/-- The bytes the loop takes off the buffer for these messages. -/
def footprint (messages : List (List UInt8)) : Nat :=
  (messages.map fun message => message.length + sizeofPacketHeader).sum

theorem footprint_append (first rest : List (List UInt8)) :
    footprint (first ++ rest) = footprint first + footprint rest := by
  simp [footprint]

theorem footprint_onReadComplete (session : BigSession) (message : List UInt8) :
    footprint (session.onReadComplete message) ≤ message.length + sizeofPacketHeader := by
  cases closed : session.closed with
  | false => simp [onReadComplete, closed, footprint]
  | true => simp [onReadComplete, closed, footprint]

/-- Everything delivered, and what is still in the buffer, has been in the buffer before, with eight
bytes for each message. -/
def Covers (available : Int) (handled : HandledRead) : Prop :=
  0 ≤ handled.session.readBuffer.writeLength ∧
    footprint handled.delivered + handled.session.readBuffer.writeLength ≤ available

theorem covers_idle {session : BigSession} (threw : Bool)
    (nonneg : 0 ≤ session.readBuffer.writeLength) :
    Covers session.readBuffer.writeLength ⟨session, [], threw⟩ := by
  refine ⟨nonneg, ?_⟩
  simp [footprint]

theorem covers_loop {session : BigSession} (nonneg : 0 ≤ session.readBuffer.writeLength) :
    Covers session.readBuffer.writeLength (session.loop useEncryptData) := by
  induction session using loop.induct useEncryptData with
  | case1 session after turned =>
      have accounts := accounts_turn useEncryptData session
      rw [turned] at accounts
      rw [loop, turned]
      rw [← accounts] at nonneg ⊢
      exact covers_idle false nonneg
  | case2 session after turned =>
      have accounts := accounts_turn useEncryptData session
      rw [turned] at accounts
      rw [loop, turned]
      rw [← accounts] at nonneg ⊢
      exact covers_idle false nonneg
  | case3 session after turned =>
      have accounts := accounts_turn useEncryptData session
      rw [turned] at accounts
      rw [loop, turned]
      rw [← accounts] at nonneg ⊢
      exact covers_idle true nonneg
  | case4 session after message turned =>
      have accounts := accounts_turn useEncryptData session
      have counted := footprint_onReadComplete after message
      rw [turned] at accounts
      simp only [Accounts] at accounts
      rw [loop, turned]
      refine ⟨accounts.1, ?_⟩
      simp only
      omega
  | case5 session after message turned ih =>
      have accounts := accounts_turn useEncryptData session
      have counted := footprint_onReadComplete after message
      rw [turned] at accounts
      simp only [Accounts] at accounts
      have rest := ih accounts.1
      rw [loop, turned]
      refine ⟨rest.1, ?_⟩
      have covered := rest.2
      simp only [footprint_append]
      omega

theorem covers_complete {session : BigSession} (nonneg : 0 ≤ session.readBuffer.writeLength)
    (chunk : List UInt8) :
    Covers (session.readBuffer.writeLength + chunk.length)
      (session.complete useEncryptData chunk) := by
  have idle (after : BigSession) (same : after.readBuffer = session.readBuffer) :
      Covers (session.readBuffer.writeLength + chunk.length) ⟨after, [], false⟩ := by
    simp only [Covers, same, footprint, List.map_nil, List.sum_nil]
    exact ⟨nonneg, by omega⟩
  cases posted : session.outstanding with
  | none =>
      simp only [complete, posted]
      exact idle session rfl
  | some requested =>
      simp only [complete, posted, handleRead, Bool.false_eq_true, if_false]
      by_cases closed : session.closed = true
      · rw [if_pos closed]
        exact idle _ rfl
      · rw [if_neg closed]
        cases writes : session.readBuffer.writeCharArray (session.data.write 0 chunk)
            chunk.length with
        | none => exact idle _ rfl
        | some packet =>
            have written := IOPacket.writeLength_writeCharArray writes
            rw [← written] at idle ⊢
            exact covers_loop useEncryptData (by simp only; omega)

theorem covers_run {session : BigSession} (nonneg : 0 ≤ session.readBuffer.writeLength)
    (chunks : List (List UInt8)) :
    Covers (session.readBuffer.writeLength + chunks.flatten.length)
      (session.run useEncryptData chunks) := by
  induction chunks generalizing session with
  | nil =>
      refine ⟨nonneg, ?_⟩
      simp [run, footprint]
  | cons chunk chunks ih =>
      have first := covers_complete useEncryptData nonneg chunk
      have rest := ih first.1
      refine ⟨rest.1, ?_⟩
      have covered := rest.2
      have received := first.2
      simp only [run, footprint_append, List.flatten_cons, List.length_append] at covered ⊢
      omega

/-- From the start of a session, the messages delivered and eight bytes for each of them fit in the
bytes received. -/
theorem footprint_run_le (data : Memory) (chunks : List (List UInt8)) :
    footprint ((start data).run useEncryptData chunks).delivered ≤ chunks.flatten.length := by
  have covers := @covers_run useEncryptData (start data) (Int.le_refl 0) chunks
  have covered := covers.2
  have left := covers.1
  change _ ≤ (0 : Int) + chunks.flatten.length at covered
  omega

theorem footprint_eq (messages : List (List UInt8)) :
    footprint messages = (wire messages).length + 4 * messages.length := by
  induction messages with
  | nil => rfl
  | cons message messages ih =>
      have head : footprint (message :: messages) =
          message.length + sizeofPacketHeader + footprint messages := by
        simp [footprint]
      rw [head, ih, wire_cons, List.length_append, length_frame, List.length_cons,
        sizeofPacketHeader]
      omega

/-- A receiver of as many bytes as the frames of some payloads have does not deliver them, unless
there are none. -/
theorem eq_nil_of_delivered {data : Memory} {chunks payloads : List (List UInt8)}
    (length : chunks.flatten.length = (wire payloads).length)
    (delivered : ((start data).run useEncryptData chunks).delivered = payloads) :
    payloads = [] := by
  have bound := footprint_run_le useEncryptData data chunks
  rw [delivered, footprint_eq, length] at bound
  exact List.length_eq_zero_iff.mp (by omega)

/-! ## A frame that arrives alone -/

variable {useEncryptData} in
/-- A message with fewer than eight bytes in front of it is not there to be read. -/
theorem takeMessage_eq_none {session : BigSession} {size : Nat}
    (short : session.readBuffer.writeLength < size + sizeofPacketHeader) :
    session.takeMessage useEncryptData size = none := by
  cases taken : session.takeMessage useEncryptData size with
  | none => rfl
  | some result =>
      have spec := takeMessage_spec taken
      omega

/-- A complete frame with fewer than four bytes behind it makes the turn throw. -/
theorem turn_throws {session : BigSession}
    (header : packetHeaderLength ≤ session.readBuffer.readLeavings)
    (fits : session.rawSize ≤ packetBufferSize)
    (whole : session.rawSize + packetHeaderLength ≤ session.readBuffer.writeLength)
    (alone : session.readBuffer.writeLength < session.rawSize + sizeofPacketHeader) :
    ∃ after, session.turn false = .throws after := by
  have sized : (if session.rawSize = 0 then session.exit else session).rawSize =
      session.rawSize := by
    split <;> rfl
  have buffered : (if session.rawSize = 0 then session.exit else session).readBuffer =
      session.readBuffer := by
    split <;> rfl
  refine ⟨if session.rawSize = 0 then session.exit else session, ?_⟩
  simp only [turn, messageSize, Bool.false_eq_true, if_false, sized, buffered]
  rw [if_neg (Int.not_lt.mpr header), if_neg (Nat.not_lt.mpr fits), if_neg (Int.not_lt.mpr whole),
    unpack, takeMessage_eq_none (by rw [buffered]; exact alone)]

theorem loop_throws {session : BigSession}
    (throws : ∃ after, session.turn useEncryptData = .throws after) :
    (session.loop useEncryptData).threw = true := by
  rcases throws with ⟨after, turned⟩
  rw [loop, turned]

/-- A packet that starts with a frame announces its payload. -/
theorem rawSize_frame {session : BigSession} {payload : List UInt8}
    (fits : payload.length ≤ packetBufferSize)
    (stored : session.readBuffer.szBuffer.read 0 (frame payload).length = frame payload) :
    session.rawSize = payload.length := by
  rw [length_frame, Memory.read_add, frame] at stored
  rw [rawSize, (List.append_inj stored (by simp)).1, LittleEndian.decode_encode, toUInt16_natCast]
  simp only [packetBufferSize] at fits
  omega

theorem threw_complete {session : BigSession} {packet : IOPacket} {chunk : List UInt8}
    (posted : session.outstanding.isSome) (opened : session.closed = false)
    (writes : session.readBuffer.writeCharArray (session.data.write 0 chunk) chunk.length =
      some packet)
    (throws : ∀ later : BigSession, later.readBuffer = packet →
      (later.loop useEncryptData).threw = true) :
    (session.complete useEncryptData chunk).threw = true := by
  rcases Option.isSome_iff_exists.mp posted with ⟨requested, posted⟩
  simp only [complete, posted, handleRead, opened, Bool.false_eq_true, if_false, writes]
  exact throws _ rfl

/-- The first frame of a session, received in one completion of its own, makes the call throw. -/
theorem threw_frame (data : Memory) {payload : List UInt8}
    (fits : (frame payload).length ≤ packetBufferSize) :
    ((start data).run false [frame payload]).threw = true := by
  have small : ((frame payload).length : Int) ≤ socketIoBufferSize := by
    simp only [packetBufferSize] at fits
    simp only [socketIoBufferSize]
    omega
  rcases IOPacket.writeCharArray_construct (data.write 0 (frame payload)) small with
    ⟨packet, writes, readable⟩
  have written := IOPacket.writeLength_writeCharArray writes
  have stored := IOPacket.read_szBuffer_writeCharArray writes
  rw [IOPacket.writeLength_construct, Int.zero_add] at written
  rw [Memory.read_write_self] at stored
  have threw (session : BigSession) (same : session.readBuffer = packet) :
      (session.loop false).threw = true := by
    rw [length_frame] at fits written readable
    have raw : session.rawSize = payload.length := by
      apply rawSize_frame (by omega)
      rw [same]
      exact stored
    apply loop_throws
    apply turn_throws
    · rw [same, readable, packetHeaderLength]
      omega
    · omega
    · rw [same, written, raw, packetHeaderLength]
      omega
    · rw [same, written, raw, sizeofPacketHeader]
      omega
  have first := @threw_complete false (start data) packet (frame payload) rfl rfl writes threw
  rw [run, run, first]
  rfl

/-! ## The two receivers -/

/-- Without encryption, the big-buffer receiver delivers from these completions what the other one
delivers from the same stream when every receive is filled, and no call throws. -/
def Agrees (data : Memory) (payloads chunks : List (List UInt8)) : Prop :=
  ((start data).run false chunks).threw = false ∧
    ∀ filled, Connection.start.Filled filled → filled.flatten = wire payloads →
      ((start data).run false chunks).delivered = (Connection.start.run filled).2

/-- The small-buffer receiver delivers the payloads, so agreement is delivery. -/
theorem agrees_iff_delivered {payloads : List (List UInt8)}
    (bounded : ∀ payload ∈ payloads, 1 ≤ payload.length ∧ payload.length ≤ packetBufferSize)
    (data : Memory) (chunks : List (List UInt8)) :
    Agrees data payloads chunks ↔
      ((start data).run false chunks).threw = false ∧
        ((start data).run false chunks).delivered = payloads := by
  have accepted : payloads.filter (fun payload => Accepted payload) = payloads := by
    apply List.filter_eq_self.mpr
    intro payload payload_mem
    have bound := bounded payload payload_mem
    simp only [packetBufferSize] at bound
    apply decide_eq_true
    refine ⟨bound.1, ?_⟩
    simp only [maxMsgSize]
    omega
  have transfers := @Connection.Transfers.wire payloads 0 (by
    intro payload payload_mem
    have bound := bounded payload payload_mem
    simp only [packetBufferSize] at bound
    omega)
  rw [accepted] at transfers
  constructor
  · rintro ⟨quiet, same⟩
    rcases transfers with ⟨filled, fits, flattened, run, _⟩
    have delivered := same filled fits flattened
    rw [run] at delivered
    exact ⟨quiet, delivered⟩
  · rintro ⟨quiet, delivered⟩
    refine ⟨quiet, ?_⟩
    intro filled fits flattened
    rw [delivered, (transfers.unique fits flattened).1]

/-- The first completion of a session may have any length up to the size of `data_`. -/
theorem fits_first (data : Memory) {chunk : List UInt8} (nonempty : 1 ≤ chunk.length)
    (fits : chunk.length ≤ packetBufferSize) : (start data).Fits useEncryptData [chunk] := by
  refine ⟨⟨nonempty, ?_⟩, trivial⟩
  intro requested posted
  change requested ∈ some (min packetBufferSize socketIoBufferSize.toNat) at posted
  rw [Option.mem_def, Option.some.injEq] at posted
  subst posted
  apply Nat.le_min.mpr
  refine ⟨fits, fits.trans ?_⟩
  decide

theorem chunks_eq_nil {session : BigSession} {chunks : List (List UInt8)}
    (fits : session.Fits useEncryptData chunks) (empty : chunks.flatten = []) : chunks = [] := by
  cases chunks with
  | nil => rfl
  | cons chunk chunks =>
      have nonempty := fits.1.1
      have none : chunk = [] := by simpa using (List.flatten_eq_nil_iff.mp empty) chunk
      simp [none] at nonempty

/-- Whatever the division of the stream, the two receivers agree on the empty list of payloads
only. -/
theorem agrees_iff {payloads : List (List UInt8)}
    (bounded : ∀ payload ∈ payloads, 1 ≤ payload.length ∧ payload.length ≤ packetBufferSize)
    (data : Memory) {chunks : List (List UInt8)} (fits : (start data).Fits false chunks)
    (flattened : chunks.flatten = wire payloads) :
    Agrees data payloads chunks ↔ payloads = [] := by
  rw [agrees_iff_delivered bounded]
  constructor
  · rintro ⟨_, delivered⟩
    exact eq_nil_of_delivered false (by rw [flattened]) delivered
  · intro none
    subst none
    have stopped := chunks_eq_nil false fits flattened
    subst stopped
    exact ⟨rfl, rfl⟩

/-- Two payloads, the header of the first divided between two completions; and no payload. -/
theorem agrees_iff_two_frames :
    ¬Agrees Memory.zero [[7], [8, 9]] [[1, 0, 0], [0, 7, 2, 0, 0, 0, 8, 9]] ∧
      Agrees Memory.zero [] [] := by
  have fits : (start Memory.zero).Fits false [[1, 0, 0], [0, 7, 2, 0, 0, 0, 8, 9]] :=
    ⟨⟨by decide, by decide +kernel⟩, ⟨by decide, by decide +kernel⟩, trivial⟩
  constructor
  · rw [agrees_iff (by decide) Memory.zero fits (by decide)]
    exact List.cons_ne_nil _ _
  · have nothing : (start Memory.zero).Fits false [] := trivial
    exact (agrees_iff (by decide) Memory.zero nothing rfl).mpr rfl

/-- One payload of one byte, in one completion: the call throws. -/
theorem not_agrees_single_frame :
    (start Memory.zero).Fits false [[1, 0, 0, 0, 7]] ∧
      [[1, 0, 0, 0, 7]].flatten = wire [[7]] ∧
      ((start Memory.zero).run false [[1, 0, 0, 0, 7]]).threw = true ∧
      ¬Agrees Memory.zero [[7]] [[1, 0, 0, 0, 7]] := by
  have single : [1, 0, 0, 0, 7] = frame [7] := by decide
  have threw : ((start Memory.zero).run false [[1, 0, 0, 0, 7]]).threw = true := by
    rw [single]
    exact threw_frame Memory.zero (by decide)
  refine ⟨fits_first false Memory.zero (by decide) (by decide), by decide, threw, ?_⟩
  rintro ⟨quiet, _⟩
  rw [threw] at quiet
  contradiction

end BigSession

end SunPush
