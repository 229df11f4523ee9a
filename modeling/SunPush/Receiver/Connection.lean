import SunPush.Socket.Receive

/-!
# Runs of one connection's receiver

The receiver of one open session over a byte stream.  The transport completes
each outstanding receive with a *chunk*, the bytes it really places; the handler
is told the requested length instead.  A run is therefore given by the list of
chunks.  `Fits` says that every chunk is one the transport may place (at least
one byte, at most the requested ones) and `Filled` that it has the requested
length.  The upper layer only observes the messages; a session it closes simply
stops receiving chunks.
-/

namespace SunPush

open CInteger

/-- An open session as its receiver sees it: the two counters and the outstanding receive. -/
structure Connection where
  state : ReadState
  outstanding : Option Receive

namespace Connection

/-- The connection `Session::start` leaves. -/
def start : Connection where
  state := .expectHeader
  outstanding := some receiveHeader

/-- The number of bytes the outstanding receive asks for. -/
def requested (connection : Connection) : Nat :=
  match connection.outstanding with
  | none => 0
  | some receive => receive.recvLength.toNat

/-- Complete the outstanding receive with the bytes of `chunk` and run `handle_read_sp`.  The
second component is the message handed to `OnReadComplete`, if there is one. -/
def complete (connection : Connection) (chunk : List UInt8) :
    Connection × Option (List UInt8) :=
  match connection.outstanding with
  | none => (connection, none)
  | some receive =>
      let outcome := connection.state.handleReadSp (receive.msg.place receive.recvOffset chunk)
        (toSizeT receive.recvLength) false
      (⟨outcome.state, outcome.receive⟩,
        outcome.deliver.map fun delivered => delivered.1.message delivered.2)

/-- The connection after a list of chunks and the messages delivered on the way. -/
def run : Connection → List (List UInt8) → Connection × List (List UInt8)
  | connection, [] => (connection, [])
  | connection, chunk :: chunks =>
      let first := connection.complete chunk
      let rest := run first.1 chunks
      (rest.1, first.2.toList ++ rest.2)

/-- Every chunk has at least one and at most the requested number of bytes. -/
def Fits : Connection → List (List UInt8) → Prop
  | _, [] => True
  | connection, chunk :: chunks =>
      (1 ≤ chunk.length ∧ chunk.length ≤ connection.requested) ∧
        Fits (connection.complete chunk).1 chunks

/-- Every chunk has exactly the requested number of bytes. -/
def Filled : Connection → List (List UInt8) → Prop
  | _, [] => True
  | connection, chunk :: chunks =>
      (1 ≤ chunk.length ∧ chunk.length = connection.requested) ∧
        Filled (connection.complete chunk).1 chunks

/-- Whether the next completion is interpreted as a header: the first test of `handle_read_sp`. -/
def ReadsHeader (connection : Connection) : Prop :=
  connection.state.readLeave = -1 ∧ connection.requested = packetHeaderLength

instance (connection : Connection) : Decidable connection.ReadsHeader :=
  inferInstanceAs (Decidable (_ ∧ _))

/-- The stream positions at which a run interprets bytes as a header, the first chunk being at
`position`. -/
def headers : Connection → Nat → List (List UInt8) → List Nat
  | _, _, [] => []
  | connection, position, chunk :: chunks =>
      (if connection.ReadsHeader then [position] else []) ++
        headers (connection.complete chunk).1 (position + chunk.length) chunks

/-! ## Runs compose -/

theorem run_append (connection : Connection) (first rest : List (List UInt8)) :
    connection.run (first ++ rest) =
      (((connection.run first).1.run rest).1,
        (connection.run first).2 ++ ((connection.run first).1.run rest).2) := by
  induction first generalizing connection with
  | nil => simp [run]
  | cons chunk chunks ih => simp [run, ih]

theorem filled_append {connection : Connection} {first rest : List (List UInt8)} :
    connection.Filled (first ++ rest) ↔
      connection.Filled first ∧ (connection.run first).1.Filled rest := by
  induction first generalizing connection with
  | nil => simp [run, Filled]
  | cons chunk chunks ih => simp [run, Filled, ih, and_assoc]

theorem headers_append (connection : Connection) (position : Nat)
    (first rest : List (List UInt8)) :
    connection.headers position (first ++ rest) =
      connection.headers position first ++
        (connection.run first).1.headers (position + first.flatten.length) rest := by
  induction first generalizing connection position with
  | nil => simp [run, headers]
  | cons chunk chunks ih => simp [run, headers, ih, Nat.add_assoc]

/-- The division of a stream into filled chunks is determined by the stream: on a prefix of the
stream the chunks are a prefix too. -/
theorem Filled.prefix_of_flatten {connection : Connection} {left right : List (List UInt8)}
    (leftFilled : connection.Filled left) (rightFilled : connection.Filled right)
    (flattened : left.flatten <+: right.flatten) : left <+: right := by
  induction left generalizing connection right with
  | nil => exact List.nil_prefix
  | cons chunk chunks ih =>
      rcases leftFilled with ⟨⟨nonempty, exact_left⟩, leftRest⟩
      cases right with
      | nil =>
          have := flattened.length_le
          simp only [List.flatten_cons, List.length_append, List.flatten_nil,
            List.length_nil] at this
          omega
      | cons chunk' chunks' =>
          rcases rightFilled with ⟨⟨_, exact_right⟩, rightRest⟩
          rcases flattened with ⟨tail, joined⟩
          simp only [List.flatten_cons, List.append_assoc] at joined
          rcases List.append_inj joined (exact_left.trans exact_right.symm) with
            ⟨same, joinedRest⟩
          subst same
          exact List.prefix_cons_inj _ |>.mpr (ih leftRest rightRest ⟨tail, joinedRest⟩)

/-! ## The states of a receiver -/

/-- The body of a message that fits is outstanding. -/
def body (msg : NetMsg) (length : Nat) : Connection where
  state := ⟨length, 0⟩
  outstanding := some ⟨msg, 0, length⟩

/-- A block of a message that does not fit is outstanding. -/
def discard (msg : NetMsg) (leave offset : Nat) : Connection where
  state := ⟨leave, offset⟩
  outstanding := some ⟨msg, 0, min (leave : Int) maxMsgSize⟩

/-- The low 16 bits of the length field, as the first bytes of a header chunk give it.  A chunk
that stops after the first byte leaves the zero of the fresh message behind it. -/
def declared (chunk : List UInt8) : Nat :=
  (chunk.getD 0 0).toNat + 256 * (chunk.getD 1 0).toNat

theorem declared_lt (chunk : List UInt8) : declared chunk < 2 ^ 16 := by
  have low := (chunk.getD 0 0).toNat_lt
  have high := (chunk.getD 1 0).toNat_lt
  simp only [declared]
  omega

@[simp]
theorem requested_start : start.requested = packetHeaderLength := rfl

@[simp]
theorem requested_body (msg : NetMsg) (length : Nat) : (body msg length).requested = length :=
  rfl

@[simp]
theorem requested_discard (msg : NetMsg) (leave offset : Nat) :
    (discard msg leave offset).requested = min leave maxMsgSize := by
  simp only [requested, discard]
  omega

@[simp]
theorem readsHeader_start : start.ReadsHeader := ⟨rfl, rfl⟩

@[simp]
theorem not_readsHeader_body (msg : NetMsg) (length : Nat) : ¬(body msg length).ReadsHeader := by
  rintro ⟨leave, _⟩
  simp only [body] at leave
  omega

@[simp]
theorem not_readsHeader_discard (msg : NetMsg) (leave offset : Nat) :
    ¬(discard msg leave offset).ReadsHeader := by
  rintro ⟨leave, _⟩
  simp only [discard] at leave
  omega

theorem place_bufMsg (msg : NetMsg) (chunk : List UInt8) (i : Nat) :
    (msg.place 0 chunk).bufMsg i = if _ : i < chunk.length then chunk[i] else msg.bufMsg i := by
  simp only [NetMsg.place]
  by_cases inside : i < chunk.length
  · have written := @Memory.write_inside msg.bufMsg 0 chunk i inside
    rw [Int.zero_add] at written
    rw [written, dif_pos inside]
  · rw [Memory.write_outside (by omega), dif_neg inside]

theorem dataLength_place (chunk : List UInt8) :
    toUInt16 (getPoolMessage.place 0 chunk).dataLength = declared chunk := by
  have low : ∀ i : Nat, i < 2 → (getPoolMessage.place 0 chunk).bufMsg i = chunk.getD i 0 := by
    intro i i_lt
    rw [place_bufMsg]
    by_cases inside : i < chunk.length
    · rw [dif_pos inside, List.getD_eq_getElem _ _ inside]
    · rw [dif_neg inside, getPoolMessage_bufMsg, if_neg (by omega),
        List.getD_eq_default _ _ (by omega)]
  have first := low 0 (by omega)
  have second := low 1 (by omega)
  simp only [Nat.cast_zero, Nat.cast_one] at first second
  have digits : (getPoolMessage.place 0 chunk).dataLength =
      (chunk.getD 0 0).toNat + 256 * ((chunk.getD 1 0).toNat +
        256 * LittleEndian.decode ((getPoolMessage.place 0 chunk).bufMsg.read 2 2)) := by
    simp only [NetMsg.dataLength, Memory.read_succ, LittleEndian.decode, Int.zero_add, first]
    rw [show (1 : Int) + 1 = 2 by rfl, second]
  have bound := declared_lt chunk
  simp only [declared] at bound ⊢
  rw [digits, toUInt16_natCast]
  omega

/-! ## Completions in each state -/

theorem complete_start_empty {chunk : List UInt8} (empty : declared chunk = 0) :
    start.complete chunk = (start, none) := by
  have field := (dataLength_place chunk).trans empty
  simp only [complete, start, receiveHeader]
  rw [ReadState.Window.toSizeT_eq (.header getPoolMessage), Int.toNat_natCast,
    ReadState.handleReadSp_emptyHeader false field]
  rfl

theorem complete_start_body {chunk : List UInt8} (positive : 0 < declared chunk)
    (fits : declared chunk ≤ maxMsgSize) :
    start.complete chunk = (body (getPoolMessage.place 0 chunk) (declared chunk), none) := by
  rw [← dataLength_place] at positive fits ⊢
  simp only [complete, start, receiveHeader]
  rw [ReadState.Window.toSizeT_eq (.header getPoolMessage), Int.toNat_natCast,
    ReadState.handleReadSp_bodyHeader false positive fits]
  rfl

theorem complete_start_discard {chunk : List UInt8} (oversized : maxMsgSize < declared chunk) :
    start.complete chunk = (discard (getPoolMessage.place 0 chunk) (declared chunk) 0, none) := by
  rw [← dataLength_place] at oversized ⊢
  simp only [complete, start, receiveHeader]
  rw [ReadState.Window.toSizeT_eq (.header getPoolMessage), Int.toNat_natCast,
    ReadState.handleReadSp_discardHeader false oversized]
  simp only [discard, Option.map_none, Prod.mk.injEq, and_true]
  rw [min_eq_right (by omega)]
  rfl

theorem complete_body {length : Nat} (msg : NetMsg) (chunk : List UInt8) (positive : 0 < length)
    (fits : length ≤ maxMsgSize) :
    (body msg length).complete chunk = (start, some ((msg.place 0 chunk).message length)) := by
  simp only [complete, body]
  rw [ReadState.Window.toSizeT_eq (.body msg positive fits), Int.toNat_natCast,
    ReadState.handleReadSp_body false positive fits]
  rfl

theorem complete_discard_last {leave offset : Nat} (msg : NetMsg) (chunk : List UInt8)
    (positive : 0 < leave) (last : leave ≤ maxMsgSize) (oversized : maxMsgSize < offset + leave)
    (bounded : offset + leave < 2 ^ 16) :
    (discard msg leave offset).complete chunk = (start, none) := by
  have block : (min (leave : Int) maxMsgSize).toNat = leave := by omega
  simp only [complete, discard]
  rw [ReadState.Window.toSizeT_eq (.discard msg positive oversized bounded), block,
    ReadState.handleReadSp_lastDiscard false positive last oversized bounded]
  rfl

theorem complete_discard_next {leave offset : Nat} (msg : NetMsg) (chunk : List UInt8)
    (more : maxMsgSize < leave) (bounded : offset + leave < 2 ^ 16) :
    (discard msg leave offset).complete chunk =
      (discard (msg.place 0 chunk) (leave - maxMsgSize) (offset + maxMsgSize), none) := by
  have block : (min (leave : Int) maxMsgSize).toNat = maxMsgSize := by omega
  simp only [complete, discard]
  rw [ReadState.Window.toSizeT_eq (.discard msg (by omega) (by omega) bounded), block,
    ReadState.handleReadSp_nextDiscard false more bounded]
  rfl

theorem message_place_of_filled (msg : NetMsg) (chunk : List UInt8) :
    (msg.place 0 chunk).message chunk.length = chunk := by
  simp [NetMsg.message, NetMsg.place]

end Connection

end SunPush
