import SunPush.Receiver.Connection

/-!
# Frames on the wire

What the receiver makes of a sequence of frames, each the four-byte
little-endian length of a payload and the payload itself, when every receive is
filled.  The length field has 32 bits, the handler works with its low 16 bits
and the buffer holds `maxMsgSize` bytes.

A *transfer* is a sequence of filled completions with everything it does: the
bytes it takes, the messages it delivers and the stream positions it reads
headers at.  Transfers compose, and a stream determines its transfer.
-/

namespace SunPush

open CInteger

/-- A frame on the wire. -/
def frame (payload : List UInt8) : List UInt8 :=
  LittleEndian.encode 4 payload.length ++ payload

/-- The stream of a list of frames. -/
def wire (payloads : List (List UInt8)) : List UInt8 :=
  payloads.flatMap frame

/-- The stream positions at which the frames start, the first one starting at `position`. -/
def frameStarts : Nat → List (List UInt8) → List Nat
  | _, [] => []
  | position, payload :: payloads =>
      position :: frameStarts (position + (frame payload).length) payloads

/-- The payload is neither empty nor too long for a message buffer. -/
def Accepted (payload : List UInt8) : Prop :=
  1 ≤ payload.length ∧ payload.length ≤ maxMsgSize

instance (payload : List UInt8) : Decidable (Accepted payload) :=
  inferInstanceAs (Decidable (_ ∧ _))

@[simp]
theorem length_frame (payload : List UInt8) : (frame payload).length = 4 + payload.length := by
  simp [frame]

@[simp]
theorem wire_nil : wire [] = [] := rfl

@[simp]
theorem wire_cons (payload : List UInt8) (payloads : List (List UInt8)) :
    wire (payload :: payloads) = frame payload ++ wire payloads :=
  rfl

theorem wire_append (before after : List (List UInt8)) :
    wire (before ++ after) = wire before ++ wire after := by
  simp [wire]

theorem le_of_mem_frameStarts {position start : Nat} {payloads : List (List UInt8)}
    (mem : start ∈ frameStarts position payloads) : position ≤ start := by
  induction payloads generalizing position with
  | nil => simp [frameStarts] at mem
  | cons payload payloads ih =>
      simp only [frameStarts, List.mem_cons] at mem
      rcases mem with rfl | later
      · exact Nat.le_refl _
      · have := ih later
        omega

theorem frameStarts_append (position : Nat) (before after : List (List UInt8)) :
    frameStarts position (before ++ after) =
      frameStarts position before ++ frameStarts (position + (wire before).length) after := by
  induction before generalizing position with
  | nil => simp [frameStarts]
  | cons payload before ih => simp [frameStarts, ih, Nat.add_assoc]

theorem lt_of_mem_frameStarts {position start : Nat} {payloads : List (List UInt8)}
    (mem : start ∈ frameStarts position payloads) : start < position + (wire payloads).length := by
  induction payloads generalizing position with
  | nil => simp [frameStarts] at mem
  | cons payload payloads ih =>
      simp only [frameStarts, List.mem_cons] at mem
      simp only [wire_cons, List.length_append]
      rcases mem with rfl | later
      · rw [length_frame]
        omega
      · have := ih later
        omega

namespace Connection

/-- The low 16 bits are all that is left of a length field. -/
theorem declared_encode (length : Nat) :
    declared (LittleEndian.encode 4 length) = length % 2 ^ 16 := by
  simp only [declared, LittleEndian.encode, List.getD_cons_zero, List.getD_cons_succ,
    UInt8.toNat_ofNat']
  omega

/-- Filled completions of `bytes`, the first of which is at `position`, lead from `before` to
`after`; they deliver `messages` and read headers at `positions`. -/
def Transfers (before : Connection) (position : Nat) (bytes : List UInt8) (after : Connection)
    (messages : List (List UInt8)) (positions : List Nat) : Prop :=
  ∃ chunks, before.Filled chunks ∧ chunks.flatten = bytes ∧
    before.run chunks = (after, messages) ∧ before.headers position chunks = positions

namespace Transfers

theorem nil (connection : Connection) (position : Nat) :
    Transfers connection position [] connection [] [] :=
  ⟨[], trivial, rfl, rfl, rfl⟩

theorem single {connection : Connection} {position : Nat} {chunk : List UInt8}
    (nonempty : 1 ≤ chunk.length) (exact : chunk.length = connection.requested) :
    Transfers connection position chunk (connection.complete chunk).1
      (connection.complete chunk).2.toList (if connection.ReadsHeader then [position] else []) := by
  refine ⟨[chunk], ⟨⟨nonempty, exact⟩, trivial⟩, ?_, ?_, ?_⟩
  · simp
  · simp [run]
  · simp [headers]

theorem append {before between after : Connection} {position : Nat} {left right : List UInt8}
    {firstMessages lastMessages : List (List UInt8)} {firstPositions lastPositions : List Nat}
    (first : Transfers before position left between firstMessages firstPositions)
    (last : Transfers between (position + left.length) right after lastMessages lastPositions) :
    Transfers before position (left ++ right) after (firstMessages ++ lastMessages)
      (firstPositions ++ lastPositions) := by
  rcases first with ⟨firstChunks, firstFilled, rfl, firstRun, rfl⟩
  rcases last with ⟨lastChunks, lastFilled, rfl, lastRun, rfl⟩
  refine ⟨firstChunks ++ lastChunks, ?_, ?_, ?_, ?_⟩
  · rw [filled_append, firstRun]
    exact ⟨firstFilled, lastFilled⟩
  · simp
  · rw [run_append, firstRun, lastRun]
  · rw [headers_append, firstRun]

/-- Filled completions that stop within a transfer have done a part of it. -/
theorem prefix_of {before after : Connection} {position : Nat} {bytes : List UInt8}
    {messages : List (List UInt8)} {positions : List Nat} {chunks : List (List UInt8)}
    (transfers : Transfers before position bytes after messages positions)
    (filled : before.Filled chunks) (flattened : chunks.flatten <+: bytes) :
    (before.run chunks).2 <+: messages ∧ before.headers position chunks <+: positions := by
  rcases transfers with ⟨allChunks, allFilled, rfl, allRun, rfl⟩
  rcases filled.prefix_of_flatten allFilled flattened with ⟨rest, rfl⟩
  rw [run_append] at allRun
  refine ⟨?_, ?_⟩
  · exact ⟨_, congrArg Prod.snd allRun⟩
  · exact ⟨_, (headers_append before position chunks rest).symm⟩

theorem unique {before after : Connection} {position : Nat} {bytes : List UInt8}
    {messages : List (List UInt8)} {positions : List Nat} {chunks : List (List UInt8)}
    (transfers : Transfers before position bytes after messages positions)
    (filled : before.Filled chunks) (flattened : chunks.flatten = bytes) :
    before.run chunks = (after, messages) ∧ before.headers position chunks = positions := by
  rcases transfers with ⟨allChunks, allFilled, rfl, allRun, rfl⟩
  have same : chunks = allChunks := by
    apply List.IsPrefix.eq_of_length_le
    · exact filled.prefix_of_flatten allFilled (flattened ▸ List.prefix_rfl)
    · exact (allFilled.prefix_of_flatten filled (flattened ▸ List.prefix_rfl)).length_le
  subst same
  exact ⟨allRun, rfl⟩

theorem discarded {leave offset : Nat} (msg : NetMsg) {bytes : List UInt8} (position : Nat)
    (remaining : bytes.length = leave) (positive : 0 < leave)
    (oversized : maxMsgSize < offset + leave) (bounded : offset + leave < 2 ^ 16) :
    Transfers (discard msg leave offset) position bytes start [] [] := by
  induction leave using Nat.strong_induction_on generalizing msg offset bytes position with
  | _ leave ih =>
      rcases Nat.lt_or_ge maxMsgSize leave with more | last
      · -- a whole buffer is dropped and the next block requested
        have block : (bytes.take maxMsgSize).length = maxMsgSize := by
          rw [List.length_take]
          omega
        have first := @single (discard msg leave offset) position (bytes.take maxMsgSize)
          (by rw [block]; simp [maxMsgSize]) (by rw [block, requested_discard]; omega)
        rw [complete_discard_next msg _ more bounded,
          if_neg (not_readsHeader_discard _ _ _)] at first
        have shrinks : leave - maxMsgSize < leave := by
          simp only [maxMsgSize] at more ⊢
          omega
        have rest := @ih (leave - maxMsgSize) shrinks (offset + maxMsgSize)
          (msg.place 0 (bytes.take maxMsgSize)) (bytes.drop maxMsgSize)
          (position + (bytes.take maxMsgSize).length)
          (by rw [List.length_drop, remaining]) (by omega) (by omega) (by omega)
        have both := first.append rest
        rwa [List.take_append_drop] at both
      · have first := @single (discard msg leave offset) position bytes (by omega)
          (by rw [requested_discard]; omega)
        rw [complete_discard_last msg _ positive last oversized bounded,
          if_neg (not_readsHeader_discard _ _ _)] at first
        exact first

/-- A header chunk and the bytes it announces: they are delivered if they fit and are not empty,
and in any case the next header is expected right behind them. -/
theorem announced {header bytes : List UInt8} (position : Nat)
    (four : header.length = packetHeaderLength) (length : bytes.length = declared header) :
    Transfers start position (header ++ bytes) start (if Accepted bytes then [bytes] else [])
      [position] := by
  have first := @single start position header (by simp [four, packetHeaderLength]) four
  rw [if_pos readsHeader_start] at first
  rcases Nat.eq_zero_or_pos (declared header) with empty | positive
  · rw [complete_start_empty empty] at first
    have none : bytes = [] := List.length_eq_zero_iff.mp (length.trans empty)
    subst none
    rw [if_neg (by simp [Accepted]), List.append_nil]
    exact first
  · rcases Nat.lt_or_ge maxMsgSize (declared header) with oversized | fits
    · rw [complete_start_discard oversized] at first
      have rest := discarded (getPoolMessage.place 0 header) (position + header.length) length
        positive (show maxMsgSize < 0 + declared header by omega)
        (by have := declared_lt header; omega)
      rw [if_neg (by simp only [Accepted]; omega)]
      exact first.append rest
    · rw [complete_start_body positive fits] at first
      have rest := @single (body (getPoolMessage.place 0 header) (declared header))
        (position + header.length) bytes (by omega) (by rw [requested_body, length])
      rw [complete_body _ _ positive fits, if_neg (not_readsHeader_body _ _), ← length,
        message_place_of_filled] at rest
      rw [if_pos (by simp only [Accepted]; omega)]
      have both := first.append (length ▸ rest)
      exact both

theorem frame {payload : List UInt8} (position : Nat) (bounded : payload.length < 2 ^ 16) :
    Transfers start position (frame payload) start (if Accepted payload then [payload] else [])
      [position] := by
  apply announced
  · simp [packetHeaderLength]
  · rw [declared_encode, Nat.mod_eq_of_lt bounded]

theorem wire {payloads : List (List UInt8)} (position : Nat)
    (bounded : ∀ payload ∈ payloads, payload.length < 2 ^ 16) :
    Transfers start position (wire payloads) start (payloads.filter fun payload => Accepted payload)
      (frameStarts position payloads) := by
  induction payloads generalizing position with
  | nil => exact nil start position
  | cons payload payloads ih =>
      have first := Transfers.frame position (bounded payload List.mem_cons_self)
      have rest := ih (position + (SunPush.frame payload).length)
        (fun other other_mem => bounded other (List.mem_cons_of_mem _ other_mem))
      have both := first.append rest
      by_cases accepted : Accepted payload
      · simpa [accepted, frameStarts] using both
      · simpa [accepted, frameStarts] using both

end Transfers

/-! ## Frames the handler can represent -/

/-- When every receive is filled, exactly the payloads that are neither empty nor too long are
delivered, in order and with their own bytes, every header is read where a frame starts, and the
receiver is left waiting for the next frame. -/
theorem run_wire {payloads : List (List UInt8)}
    (bounded : ∀ payload ∈ payloads, payload.length ≤ 65535) :
    (∃ chunks, start.Filled chunks ∧ chunks.flatten = wire payloads) ∧
      ∀ chunks, start.Filled chunks → chunks.flatten = wire payloads →
        start.run chunks = (start, payloads.filter fun payload => Accepted payload) ∧
          start.headers 0 chunks = frameStarts 0 payloads := by
  have transfers : Transfers start 0 (wire payloads) start
      (payloads.filter fun payload => Accepted payload) (frameStarts 0 payloads) := by
    apply Transfers.wire
    intro payload payload_mem
    have := bounded payload payload_mem
    omega
  refine ⟨?_, ?_⟩
  · rcases transfers with ⟨chunks, filled, flattened, _⟩
    exact ⟨chunks, filled, flattened⟩
  · intro chunks filled flattened
    exact transfers.unique filled flattened

theorem run_wire_two_frames :
    ∃ chunks, start.Filled chunks ∧ chunks.flatten = [0, 0, 0, 0, 2, 0, 0, 0, 7, 9] ∧
      start.run chunks = (start, [[7, 9]]) ∧ start.headers 0 chunks = [0, 4] := by
  have bounded : ∀ payload ∈ [[], [(7 : UInt8), 9]], payload.length ≤ 65535 := by decide
  rcases run_wire bounded with ⟨⟨chunks, filled, flattened⟩, runs⟩
  exact ⟨chunks, filled, flattened, runs chunks filled flattened⟩

/-! ## Frames of any length -/

/-- Headers are read only where a frame starts, and only whole payloads that fit are delivered. -/
def KeepsFrames (payloads : List (List UInt8)) : Prop :=
  ∀ chunks, start.Filled chunks → chunks.flatten <+: wire payloads →
    (∀ position ∈ start.headers 0 chunks, position ∈ frameStarts 0 payloads) ∧
      (start.run chunks).2 <+: payloads.filter fun payload => Accepted payload

/-- Behind a length that does not fit in 16 bits a header is read inside the payload. -/
theorem header_inside_payload {before after : List (List UInt8)} {payload : List UInt8}
    (bounded : ∀ other ∈ before, other.length < 2 ^ 16) (large : 2 ^ 16 ≤ payload.length) :
    ∃ chunks, start.Filled chunks ∧ chunks.flatten <+: wire (before ++ payload :: after) ∧
      (wire before).length + (4 + payload.length % 2 ^ 16) ∈ start.headers 0 chunks := by
  have taken : (payload.take (payload.length % 2 ^ 16)).length = payload.length % 2 ^ 16 := by
    rw [List.length_take]
    omega
  have four : ((payload.drop (payload.length % 2 ^ 16)).take 4).length = packetHeaderLength := by
    rw [List.length_take, List.length_drop, packetHeaderLength]
    omega
  have earlier := Transfers.wire 0 bounded
  have truncated := @Transfers.announced (LittleEndian.encode 4 payload.length)
    (payload.take (payload.length % 2 ^ 16)) (0 + (wire before).length)
    (by simp [packetHeaderLength]) (by rw [taken, declared_encode])
  have misplaced := @Transfers.single start
    (0 + (wire before ++ (LittleEndian.encode 4 payload.length ++
      payload.take (payload.length % 2 ^ 16))).length)
    ((payload.drop (payload.length % 2 ^ 16)).take 4) (by rw [four]; simp [packetHeaderLength]) four
  rw [if_pos readsHeader_start] at misplaced
  rcases (earlier.append truncated).append misplaced with
    ⟨chunks, filled, flattened, _, positions⟩
  refine ⟨chunks, filled, ?_, ?_⟩
  · rw [flattened, wire_append, wire_cons, frame]
    refine ⟨(payload.drop (payload.length % 2 ^ 16)).drop 4 ++ wire after, ?_⟩
    simp only [List.append_assoc, List.append_cancel_left_eq]
    rw [← List.append_assoc (List.take 4 _), List.take_append_drop, ← List.append_assoc,
      List.take_append_drop]
  · rw [positions]
    apply List.mem_append_right
    simp only [List.length_append, LittleEndian.length_encode, taken, Nat.zero_add,
      List.mem_singleton]

/-- The receiver keeps to the frames exactly when every length fits in 16 bits. -/
theorem keepsFrames_iff (payloads : List (List UInt8)) :
    KeepsFrames payloads ↔ ∀ payload ∈ payloads, payload.length < 2 ^ 16 := by
  constructor
  · intro keeps
    by_contra unbounded
    have large : ∃ payload ∈ payloads, decide (2 ^ 16 ≤ payload.length) := by
      simpa using unbounded
    rw [← List.find?_isSome, Option.isSome_iff_exists] at large
    rcases large with ⟨payload, found⟩
    rw [List.find?_eq_some_iff_append] at found
    rcases found with ⟨large, before, after, rfl, earlier⟩
    rcases @header_inside_payload before after payload
      (by intro other other_mem; simpa using earlier other other_mem) (by simpa using large) with
      ⟨chunks, filled, flattened, misplaced⟩
    have started := (keeps chunks filled flattened).1 _ misplaced
    rw [frameStarts_append, frameStarts, List.mem_append, List.mem_cons, length_frame] at started
    simp only [decide_eq_true_eq] at large
    rcases started with earlier | here | later
    · have := lt_of_mem_frameStarts earlier
      omega
    · omega
    · have := le_of_mem_frameStarts later
      omega
  · intro bounded chunks filled flattened
    rcases (Transfers.wire 0 bounded).prefix_of filled flattened with ⟨messages, positions⟩
    exact ⟨fun position position_mem => positions.subset position_mem, messages⟩

/-- A peer smuggles a message: the frame at the start of a payload of 65536 bytes is delivered. -/
theorem not_keepsFrames_of_smuggled {inner rest : List UInt8} (accepted : Accepted inner)
    (length : (frame inner ++ rest).length = 2 ^ 16) : ¬KeepsFrames [frame inner ++ rest] := by
  intro keeps
  have outer := @Transfers.announced (LittleEndian.encode 4 (2 ^ 16)) [] 0 rfl
    (by rw [declared_encode]; rfl)
  have smuggled := @Transfers.frame inner (0 + (LittleEndian.encode 4 (2 ^ 16) ++ []).length)
    (by have := accepted.2; simp only [maxMsgSize] at this; omega)
  rcases outer.append smuggled with ⟨chunks, filled, flattened, run, _⟩
  have delivered := (keeps chunks filled ?_).2
  · have too_long : ¬Accepted (frame inner ++ rest) := by
      rintro ⟨_, fits⟩
      simp only [maxMsgSize] at fits
      omega
    rw [run, if_pos accepted, List.filter_cons_of_neg (by simpa using too_long)] at delivered
    simp [Accepted] at delivered
  · have outside : frame (frame inner ++ rest) =
        LittleEndian.encode 4 (2 ^ 16) ++ (frame inner ++ rest) := by
      rw [frame, length]
    rw [flattened, wire_cons, outside]
    exact ⟨rest, by simp⟩

theorem not_keepsFrames_smuggled_byte :
    ¬KeepsFrames [frame [42] ++ List.replicate (2 ^ 16 - 5) 0] :=
  not_keepsFrames_of_smuggled (by decide)
    (by rw [List.length_append, length_frame, List.length_replicate]; rfl)

end Connection

end SunPush
