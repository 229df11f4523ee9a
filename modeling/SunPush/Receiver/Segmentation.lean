import SunPush.Receiver.Connection

/-!
# Streams cut into receive completions

The transport may complete a receive with fewer bytes than requested, while the
handler is told the requested length.  The messages delivered for a stream can
therefore depend on where the stream is cut.  The file determines the streams
for which they do not: those that are all zeros but for the last byte, and a
frame of one or two zero bytes with such a stream behind it.

Every other stream is cut in two ways with different results.  One of them is
always a header cut after its first byte `x`, which announces `x` bytes, and a
body cut after its first byte.
-/

namespace SunPush

open CInteger

/-- All bytes but possibly the last one are zero. -/
def Quiet (stream : List UInt8) : Prop :=
  ∀ byte ∈ stream.dropLast, byte = 0

/-- The streams whose messages do not depend on how they are cut. -/
def Unsplittable (stream : List UInt8) : Prop :=
  Quiet stream ∨ stream = [2, 0, 0, 0, 0] ∨
    ∃ rest, Quiet rest ∧ (stream = [1, 0, 0, 0, 0] ++ rest ∨ stream = [2, 0, 0, 0, 0, 0] ++ rest)

theorem quiet_nil : Quiet [] := by
  simp [Quiet]

theorem quiet_singleton (byte : UInt8) : Quiet [byte] := by
  simp [Quiet]

theorem quiet_append {first rest : List UInt8} (nonempty : rest ≠ []) :
    Quiet (first ++ rest) ↔ (∀ byte ∈ first, byte = 0) ∧ Quiet rest := by
  simp only [Quiet, List.dropLast_append_of_ne_nil nonempty, List.mem_append]
  constructor
  · intro zeros
    exact ⟨fun byte byte_mem => zeros byte (.inl byte_mem),
      fun byte byte_mem => zeros byte (.inr byte_mem)⟩
  · rintro ⟨first_zeros, rest_zeros⟩ byte (byte_mem | byte_mem)
    · exact first_zeros byte byte_mem
    · exact rest_zeros byte byte_mem

theorem Quiet.of_append {first rest : List UInt8} (quiet : Quiet (first ++ rest)) :
    Quiet rest := by
  by_cases nonempty : rest = []
  · subst nonempty
    exact quiet_nil
  · exact ((quiet_append nonempty).mp quiet).2

theorem quiet_cons_cons {first second : UInt8} {rest : List UInt8} :
    Quiet (first :: second :: rest) ↔ first = 0 ∧ Quiet (second :: rest) := by
  have := @quiet_append [first] (second :: rest) (by simp)
  simpa using this

theorem Quiet.zero_cons {rest : List UInt8} (quiet : Quiet rest) : Quiet (0 :: rest) := by
  cases rest with
  | nil => exact quiet_singleton 0
  | cons byte rest => exact quiet_cons_cons.mpr ⟨rfl, quiet⟩

/-- The streams that are not quiet begin with a byte one or two that is not the last. -/
theorem Unsplittable.quiet_or {stream : List UInt8} (unsplittable : Unsplittable stream) :
    Quiet stream ∨ ∃ first second rest, (first = 1 ∨ first = 2) ∧
      stream = first :: second :: rest ∧ Quiet (second :: rest) := by
  rcases unsplittable with quiet | rfl | ⟨rest, quiet, rfl | rfl⟩
  · exact .inl quiet
  · exact .inr ⟨2, 0, [0, 0, 0], .inr rfl, rfl, by simp [Quiet]⟩
  · exact .inr ⟨1, 0, [0, 0, 0] ++ rest, .inl rfl, rfl,
      quiet.zero_cons.zero_cons.zero_cons.zero_cons⟩
  · exact .inr ⟨2, 0, [0, 0, 0, 0] ++ rest, .inr rfl, rfl,
      quiet.zero_cons.zero_cons.zero_cons.zero_cons.zero_cons⟩

namespace Connection

/-- The messages delivered for `stream` do not depend on how the transport cuts it. -/
def SegmentationIndependent (stream : List UInt8) : Prop :=
  ∀ left right, start.Fits left → start.Fits right → left.flatten = stream →
    right.flatten = stream → (start.run left).2 = (start.run right).2

/-- The messages one way of cutting `stream` delivers. -/
def Delivers (connection : Connection) (stream : List UInt8) (messages : List (List UInt8)) :
    Prop :=
  ∃ chunks, connection.Fits chunks ∧ chunks.flatten = stream ∧
    (connection.run chunks).2 = messages

theorem SegmentationIndependent.unique {stream : List UInt8} {left right : List (List UInt8)}
    (independent : SegmentationIndependent stream) (first : start.Delivers stream left)
    (second : start.Delivers stream right) : left = right := by
  rcases first with ⟨leftChunks, leftFits, leftFlattened, rfl⟩
  rcases second with ⟨rightChunks, rightFits, rightFlattened, rfl⟩
  exact independent leftChunks rightChunks leftFits rightFits leftFlattened rightFlattened

theorem SegmentationIndependent.of_forall {stream : List UInt8} {messages : List (List UInt8)}
    (same : ∀ chunks, start.Fits chunks → chunks.flatten = stream →
      (start.run chunks).2 = messages) : SegmentationIndependent stream := by
  intro left right leftFits rightFits leftFlattened rightFlattened
  rw [same left leftFits leftFlattened, same right rightFits rightFlattened]

/-! ## Connections that can go on -/

/-- The outstanding receive fits the counters. -/
def Ready (connection : Connection) : Prop :=
  ∃ receive, connection.outstanding = some receive ∧
    ReadState.Window connection.state receive

theorem ready_start : start.Ready :=
  ⟨_, rfl, .header getPoolMessage⟩

theorem Ready.one_le_requested {connection : Connection} (ready : connection.Ready) :
    1 ≤ connection.requested := by
  rcases ready with ⟨receive, outstanding, window⟩
  have bounds := window.bounds
  simp only [requested, outstanding]
  omega

theorem Ready.complete {connection : Connection} (ready : connection.Ready)
    (chunk : List UInt8) : (connection.complete chunk).1.Ready := by
  rcases ready with ⟨receive, outstanding, window⟩
  rcases ReadState.handleReadSp_window window (receive.msg.place receive.recvOffset chunk) false
    with ⟨_, next, posted, nextWindow⟩
  simp only [Connection.complete, outstanding]
  exact ⟨next, posted, nextWindow⟩

namespace Delivers

theorem nil (connection : Connection) : Delivers connection [] [] :=
  ⟨[], trivial, rfl, rfl⟩

theorem step {connection : Connection} {chunk rest : List UInt8} {messages : List (List UInt8)}
    (nonempty : 1 ≤ chunk.length) (fits : chunk.length ≤ connection.requested)
    (later : (connection.complete chunk).1.Delivers rest messages) :
    connection.Delivers (chunk ++ rest) ((connection.complete chunk).2.toList ++ messages) := by
  rcases later with ⟨chunks, laterFits, rfl, rfl⟩
  exact ⟨chunk :: chunks, ⟨⟨nonempty, fits⟩, laterFits⟩, rfl, rfl⟩

/-- Every stream can be received, for instance byte by byte. -/
theorem exists_of_ready {connection : Connection} (ready : connection.Ready)
    (stream : List UInt8) : ∃ messages, connection.Delivers stream messages := by
  induction stream generalizing connection with
  | nil => exact ⟨[], .nil connection⟩
  | cons byte stream ih =>
      rcases ih (ready.complete [byte]) with ⟨messages, later⟩
      have first := @step connection [byte] stream messages (by simp) ready.one_le_requested later
      exact ⟨_, first⟩

end Delivers

/-! ## Streams that deliver nothing -/

/-- Nothing is delivered by the next completion: a header or a block to drop is outstanding. -/
inductive Skipping : Connection → Prop where
  | start : Skipping start
  | discard (msg : NetMsg) {leave offset : Nat} (positive : 0 < leave)
      (oversized : maxMsgSize < offset + leave) (bounded : offset + leave < 2 ^ 16) :
      Skipping (discard msg leave offset)

theorem Skipping.ready {connection : Connection} (skipping : connection.Skipping) :
    connection.Ready := by
  cases skipping with
  | start => exact ready_start
  | discard msg positive oversized bounded =>
      exact ⟨_, rfl, .discard msg positive oversized bounded⟩

theorem Skipping.complete_discard {leave offset : Nat} (msg : NetMsg) (chunk : List UInt8)
    (positive : 0 < leave) (oversized : maxMsgSize < offset + leave)
    (bounded : offset + leave < 2 ^ 16) :
    ((Connection.discard msg leave offset).complete chunk).1.Skipping ∧
      ((Connection.discard msg leave offset).complete chunk).2 = none := by
  rcases Nat.lt_or_ge maxMsgSize leave with more | last
  · rw [complete_discard_next msg chunk more bounded]
    exact ⟨.discard _ (by omega) (by omega) (by omega), rfl⟩
  · rw [complete_discard_last msg chunk positive last oversized bounded]
    exact ⟨.start, rfl⟩

theorem getD_of_zeros {bytes : List UInt8} (zeros : ∀ byte ∈ bytes, byte = 0) (i : Nat) :
    bytes.getD i 0 = 0 := by
  rcases Nat.lt_or_ge i bytes.length with inside | outside
  · rw [List.getD_eq_getElem _ _ inside]
    exact zeros _ (List.getElem_mem inside)
  · exact List.getD_eq_default _ _ outside

theorem declared_eq_zero {chunk : List UInt8} (zeros : ∀ byte ∈ chunk, byte = 0) :
    declared chunk = 0 := by
  simp only [declared, getD_of_zeros zeros]
  rfl

theorem complete_start_none (chunk : List UInt8) : (start.complete chunk).2 = none := by
  rcases Nat.eq_zero_or_pos (declared chunk) with empty | positive
  · rw [complete_start_empty empty]
  · rcases Nat.lt_or_ge maxMsgSize (declared chunk) with oversized | fits
    · rw [complete_start_discard oversized]
    · rw [complete_start_body positive fits]

/-- However it is cut, a quiet stream delivers nothing: only its last completion can announce a
message. -/
theorem messages_of_quiet {connection : Connection} {chunks : List (List UInt8)}
    (skipping : connection.Skipping) (fits : connection.Fits chunks)
    (quiet : Quiet chunks.flatten) : (connection.run chunks).2 = [] := by
  induction chunks generalizing connection with
  | nil => rfl
  | cons chunk chunks ih =>
      rcases fits with ⟨_, restFits⟩
      rw [List.flatten_cons] at quiet
      simp only [run, List.append_eq_nil_iff, Option.toList_eq_nil_iff]
      cases skipping with
      | discard msg positive oversized bounded =>
          rcases Skipping.complete_discard msg chunk positive oversized bounded with
            ⟨skips, silent⟩
          exact ⟨silent, ih skips restFits quiet.of_append⟩
      | start =>
          refine ⟨complete_start_none chunk, ?_⟩
          cases chunks with
          | nil => rfl
          | cons next chunks =>
              have nonempty : (next :: chunks).flatten ≠ [] := by
                have := restFits.1.1
                intro empty
                rw [List.flatten_cons, List.append_eq_nil_iff] at empty
                simp [empty.1] at this
              have zeros := ((quiet_append nonempty).mp quiet).1
              rw [complete_start_empty (declared_eq_zero zeros)] at restFits ⊢
              exact ih .start restFits quiet.of_append

theorem Delivers.of_quiet {connection : Connection} {stream : List UInt8}
    (skipping : connection.Skipping) (quiet : Quiet stream) : connection.Delivers stream [] := by
  rcases Delivers.exists_of_ready skipping.ready stream with ⟨_, chunks, fits, rfl, _⟩
  exact ⟨chunks, fits, rfl, messages_of_quiet skipping fits quiet⟩

/-! ## Messages cut after some bytes -/

/-- The message delivered when the header is completed by `header` and the body by `part`: the
bytes that did not arrive are those the header and the fresh message left in the buffer. -/
def received (header part : List UInt8) : List UInt8 :=
  ((getPoolMessage.place 0 header).place 0 part).message (declared header)

@[simp]
theorem length_received (header part : List UInt8) :
    (received header part).length = declared header := by
  simp [received, NetMsg.message]

theorem received_getElem {header part : List UInt8} {i : Nat}
    (inside : i < (received header part).length) :
    (received header part)[i] =
      if _ : i < part.length then part[i]
      else if _ : i < header.length then header[i]
      else if i = 2 ∨ i = 3 then 0xFF else 0 := by
  simp only [received, NetMsg.message, Memory.getElem_read, Int.zero_add, place_bufMsg,
    getPoolMessage_bufMsg]

/-- A stream cut into a header, a first part of the body it announces, and the rest. -/
structure Cut (stream header part rest : List UInt8) : Prop where
  joined : header ++ part ++ rest = stream
  headerNonempty : 1 ≤ header.length
  headerFits : header.length ≤ packetHeaderLength
  positive : 0 < declared header
  fits : declared header ≤ maxMsgSize
  partNonempty : 1 ≤ part.length
  partFits : part.length ≤ declared header

namespace Cut

variable {stream header part rest : List UInt8}

theorem delivers {messages : List (List UInt8)} (cut : Cut stream header part rest)
    (later : start.Delivers rest messages) :
    start.Delivers stream (received header part :: messages) := by
  have afterHeader := complete_start_body cut.positive cut.fits
  have afterPart := complete_body (getPoolMessage.place 0 header) part cut.positive cut.fits
  have second := @Delivers.step (body (getPoolMessage.place 0 header) (declared header)) part rest
    messages cut.partNonempty cut.partFits (by rw [afterPart]; exact later)
  have both := @Delivers.step start header (part ++ rest) _ cut.headerNonempty cut.headerFits
    (by rw [afterHeader]; exact second)
  rw [afterHeader, afterPart] at both
  rw [← cut.joined, List.append_assoc]
  exact both

theorem exists_delivers (cut : Cut stream header part rest) :
    ∃ messages, start.Delivers stream (received header part :: messages) := by
  rcases Delivers.exists_of_ready ready_start rest with ⟨messages, later⟩
  exact ⟨messages, cut.delivers later⟩

end Cut

/-- A header that announces more than a buffer delivers nothing if all but its first block is
quiet. -/
theorem Delivers.oversized {header rest : List UInt8} {byte : UInt8}
    (nonempty : 1 ≤ header.length) (fits : header.length ≤ packetHeaderLength)
    (oversized : maxMsgSize < declared header) (quiet : Quiet rest) :
    start.Delivers (header ++ byte :: rest) [] := by
  have bounded := declared_lt header
  have afterHeader := complete_start_discard oversized
  have afterBlock := complete_discard_next (getPoolMessage.place 0 header) [byte] oversized
    (show 0 + declared header < 2 ^ 16 by omega)
  have skipping : (discard ((getPoolMessage.place 0 header).place 0 [byte])
      (declared header - maxMsgSize) (0 + maxMsgSize)).Skipping :=
    .discard _ (by omega) (by omega) (by omega)
  have second := @Delivers.step (discard (getPoolMessage.place 0 header) (declared header) 0)
    [byte] rest [] (by simp)
    (by rw [requested_discard]; simp only [maxMsgSize, List.length_singleton] at oversized ⊢; omega)
    (by rw [afterBlock]; exact .of_quiet skipping quiet)
  have both := @Delivers.step start header ([byte] ++ rest) _ nonempty fits
    (by rw [afterHeader]; exact second)
  rw [afterHeader, afterBlock] at both
  exact both

/-- A stream that is a single completion delivers nothing. -/
theorem Delivers.header {stream : List UInt8} (nonempty : 1 ≤ stream.length)
    (fits : stream.length ≤ packetHeaderLength) : start.Delivers stream [] := by
  have single := @Delivers.step start stream [] [] nonempty fits (.nil _)
  rw [complete_start_none, List.append_nil] at single
  exact single

/-! ## What independence forces -/

namespace SegmentationIndependent

variable {stream header part rest : List UInt8}

theorem received_eq {header' part' rest' : List UInt8}
    (independent : SegmentationIndependent stream) (cut : Cut stream header part rest)
    (cut' : Cut stream header' part' rest') : received header part = received header' part' := by
  rcases cut.exists_delivers with ⟨messages, delivers⟩
  rcases cut'.exists_delivers with ⟨messages', delivers'⟩
  exact (List.cons.inj (independent.unique delivers delivers')).1

theorem not_silent (independent : SegmentationIndependent stream)
    (cut : Cut stream header part rest) : ¬start.Delivers stream [] := by
  intro silent
  rcases cut.exists_delivers with ⟨messages, delivers⟩
  have := independent.unique delivers silent
  contradiction

theorem of_cut (independent : SegmentationIndependent stream)
    (cut : Cut stream header part rest) : SegmentationIndependent rest := by
  intro left right leftFits rightFits leftFlattened rightFlattened
  have leftDelivers := cut.delivers ⟨left, leftFits, leftFlattened, rfl⟩
  have rightDelivers := cut.delivers ⟨right, rightFits, rightFlattened, rfl⟩
  exact (List.cons.inj (independent.unique leftDelivers rightDelivers)).2

theorem of_empty {chunk : List UInt8} (independent : SegmentationIndependent (chunk ++ rest))
    (nonempty : 1 ≤ chunk.length) (fits : chunk.length ≤ packetHeaderLength)
    (empty : declared chunk = 0) : SegmentationIndependent rest := by
  intro left right leftFits rightFits leftFlattened rightFlattened
  have through : ∀ messages, start.Delivers rest messages →
      start.Delivers (chunk ++ rest) messages := by
    intro messages later
    have both := @Delivers.step start chunk rest messages nonempty fits
      (by rw [complete_start_empty empty]; exact later)
    rw [complete_start_empty empty] at both
    exact both
  exact independent.unique (through _ ⟨left, leftFits, leftFlattened, rfl⟩)
    (through _ ⟨right, rightFits, rightFlattened, rfl⟩)

end SegmentationIndependent

/-- The byte at `i` of the message cut into `header` and `part`. -/
def receivedByte (header part : List UInt8) (i : Nat) : UInt8 :=
  if i < part.length then part.getD i 0
  else if i < header.length then header.getD i 0
  else if i = 2 ∨ i = 3 then 0xFF else 0

theorem received_getElem? {header part : List UInt8} {i : Nat} (inside : i < declared header) :
    (received header part)[i]? = some (receivedByte header part i) := by
  rw [List.getElem?_eq_getElem (by rwa [length_received]), received_getElem, receivedByte]
  by_cases arrived : i < part.length
  · simp [arrived]
  · by_cases covered : i < header.length
    · simp [arrived, covered]
    · simp [arrived, covered]

theorem receivedByte_eq {header part header' part' : List UInt8} {i : Nat}
    (same : received header part = received header' part') (inside : i < declared header) :
    receivedByte header part i = receivedByte header' part' i := by
  have inside' : i < declared header' := by
    rw [← length_received header' part', ← same, length_received]
    exact inside
  have bytes := congrArg (fun message => message[i]?) same
  simp only [received_getElem? inside, received_getElem? inside', Option.some.injEq] at bytes
  exact bytes

theorem declared_eq_of_received_eq {header part header' part' : List UInt8}
    (same : received header part = received header' part') :
    declared header = declared header' := by
  rw [← length_received header part, same, length_received]

theorem declared_singleton (first : UInt8) : declared [first] = first.toNat := by
  simp [declared]

theorem declared_cons_cons (first second : UInt8) (rest : List UInt8) :
    declared (first :: second :: rest) = first.toNat + 256 * second.toNat := by
  simp [declared]

theorem toNat_pos {byte : UInt8} (nonzero : byte ≠ 0) : 0 < byte.toNat := by
  apply Nat.pos_of_ne_zero
  intro zero
  exact nonzero (UInt8.toNat_inj.mp zero)

theorem Cut.singles {first second : UInt8} (rest : List UInt8) (nonzero : first ≠ 0) :
    Cut (first :: second :: rest) [first] [second] rest := by
  have positive := toNat_pos nonzero
  have bounded := first.toNat_lt
  constructor
  · rfl
  · simp
  · simp [packetHeaderLength]
  · rwa [declared_singleton]
  · rw [declared_singleton, maxMsgSize]
    omega
  · simp
  · rw [declared_singleton]
    exact positive

/-- A cut behind two bytes of the header, or more. -/
theorem Cut.behind_pair {first second : UInt8} {more part rest : List UInt8}
    (headerFits : more.length ≤ 2) (fits : first.toNat + 256 * second.toNat ≤ maxMsgSize)
    (partNonempty : 1 ≤ part.length) (partFits : part.length ≤ first.toNat + 256 * second.toNat) :
    Cut ((first :: second :: more) ++ part ++ rest) (first :: second :: more) part rest := by
  constructor
  · rfl
  · simp
  · simp [packetHeaderLength]
    omega
  · rw [declared_cons_cons]
    omega
  · rwa [declared_cons_cons]
  · exact partNonempty
  · rwa [declared_cons_cons]

namespace SegmentationIndependent

variable {first second : UInt8} {rest : List UInt8}

/-- A zero does not separate from the header behind it: cut after that header's first byte, the
message is 256 times as long. -/
theorem unsplittable_zero_cons (independent : SegmentationIndependent (0 :: second :: rest))
    (unsplittable : Unsplittable (second :: rest)) : Unsplittable (0 :: second :: rest) := by
  rcases unsplittable.quiet_or with quiet | ⟨length, byte, tail, small, shape, _⟩
  · exact .inl (quiet_cons_cons.mpr ⟨rfl, quiet⟩)
  · rcases List.cons.inj shape with ⟨rfl, rfl⟩
    have bounds : 1 ≤ second.toNat ∧ second.toNat ≤ 2 := by
      rcases small with rfl | rfl <;> decide
    have nonzero : second ≠ 0 := by
      rcases small with rfl | rfl <;> decide
    -- the header alone, and the header with the zero before it
    have alone := @Cut.singles second byte tail nonzero
    rcases alone.exists_delivers with ⟨messages, delivers⟩
    have later := @Delivers.step start [0] (second :: byte :: tail) _ (by simp)
      (by simp [packetHeaderLength]) (by rw [complete_start_empty (by decide)]; exact delivers)
    have joined : Cut (0 :: second :: byte :: tail) [0, second] [byte] tail := by
      apply @Cut.behind_pair 0 second [] [byte] tail (Nat.zero_le _)
      · rw [maxMsgSize, UInt8.toNat_zero]
        omega
      · simp
      · rw [List.length_singleton]
        omega
    rcases joined.exists_delivers with ⟨others, joinedDelivers⟩
    rw [complete_start_empty (by decide)] at later
    have same := (List.cons.inj (independent.unique later joinedDelivers)).1
    have lengths := declared_eq_of_received_eq same
    rw [declared_singleton, declared_cons_cons, UInt8.toNat_zero] at lengths
    omega

/-- The second byte is zero: a header cut after it would announce another length. -/
theorem second_eq_zero (independent : SegmentationIndependent (first :: second :: rest))
    (nonzero : first ≠ 0) (unsplittable : Unsplittable rest) : second = 0 := by
  by_contra secondNonzero
  have singles := @Cut.singles first second rest nonzero
  have low := toNat_pos nonzero
  have high := toNat_pos secondNonzero
  have announced := declared_cons_cons first second []
  cases rest with
  | nil =>
      exact independent.not_silent singles (.header (by simp) (by simp [packetHeaderLength]))
  | cons byte tail =>
      rcases Nat.lt_or_ge maxMsgSize (declared [first, second]) with oversized | fits
      · have quiet : Quiet tail := by
          rcases unsplittable.quiet_or with quiet | ⟨_, _, _, _, shape, quiet⟩
          · exact @Quiet.of_append [byte] tail quiet
          · rw [(List.cons.inj shape).2]
            exact quiet
        exact independent.not_silent singles
          (@Delivers.oversized [first, second] tail byte (by simp) (by simp [packetHeaderLength])
            oversized quiet)
      · rw [announced] at fits
        have pair : Cut (first :: second :: byte :: tail) [first, second] [byte] tail := by
          apply @Cut.behind_pair first second [] [byte] tail (Nat.zero_le _) fits
          · simp
          · rw [List.length_singleton]
            omega
        have lengths := declared_eq_of_received_eq (independent.received_eq singles pair)
        rw [declared_singleton, announced] at lengths
        omega

/-- What follows the first two bytes is quiet: otherwise it begins with a nonzero byte, which a
header cut before it lets into the message. -/
theorem quiet_rest (independent : SegmentationIndependent (first :: 0 :: rest))
    (nonzero : first ≠ 0) (unsplittable : Unsplittable rest) : Quiet rest := by
  rcases unsplittable.quiet_or with quiet | ⟨byte, next, tail, small, rfl, _⟩
  · exact quiet
  · have positive := toNat_pos nonzero
    have bounded := first.toNat_lt
    have pair : Cut (first :: 0 :: byte :: next :: tail) [first, 0] [byte] (next :: tail) := by
      apply @Cut.behind_pair first 0 [] [byte] (next :: tail) (Nat.zero_le _)
      · rw [maxMsgSize, UInt8.toNat_zero]
        omega
      · simp
      · rw [List.length_singleton]
        omega
    have same := independent.received_eq (Cut.singles _ nonzero) pair
    have byte_eq := receivedByte_eq same (by rw [declared_singleton]; exact positive)
    simp only [receivedByte, List.length_singleton, Nat.zero_lt_one, if_true,
      List.getD_cons_zero] at byte_eq
    rcases small with rfl | rfl <;> contradiction

/-- With a quiet rest, a whole header leaves only the lengths one and two, and zeros behind it. -/
theorem unsplittable_of_quiet_rest (independent : SegmentationIndependent (first :: 0 :: rest))
    (nonzero : first ≠ 0) (quiet : Quiet rest) : Unsplittable (first :: 0 :: rest) := by
  have singles := @Cut.singles first 0 rest nonzero
  have positive := toNat_pos nonzero
  have bounded := first.toNat_lt
  have silent (short : rest.length ≤ 2) : False :=
    independent.not_silent singles (.header (by simp) (by simp [packetHeaderLength]; omega))
  rcases rest with _ | ⟨third, _ | ⟨fourth, _ | ⟨fifth, tail⟩⟩⟩
  · exact (silent (by simp)).elim
  · exact (silent (by simp)).elim
  · exact (silent (by simp)).elim
  · rcases quiet_cons_cons.mp quiet with ⟨third_zero, quietFourth⟩
    rcases quiet_cons_cons.mp quietFourth with ⟨fourth_zero, quietFifth⟩
    subst third_zero fourth_zero
    have whole (part remaining : List UInt8) (partNonempty : 1 ≤ part.length)
        (partFits : part.length ≤ first.toNat) (joined : part ++ remaining = fifth :: tail) :
        Cut (first :: 0 :: 0 :: 0 :: fifth :: tail) [first, 0, 0, 0] part remaining := by
      rw [← joined]
      apply @Cut.behind_pair first 0 [0, 0] part remaining (Nat.le_refl _)
      · rw [maxMsgSize, UInt8.toNat_zero]
        omega
      · exact partNonempty
      · omega
    have byteCut := whole [fifth] tail (by simp) positive rfl
    have same := independent.received_eq singles byteCut
    have small : first.toNat ≤ 2 := by
      -- the third byte of the message is that of a fresh message, or of the header
      by_contra large
      have third_eq := @receivedByte_eq _ _ _ _ 2 same (by rw [declared_singleton]; omega)
      simp [receivedByte] at third_eq
    have fifth_eq : fifth = 0 := by
      have := @receivedByte_eq _ _ _ _ 0 same (by rw [declared_singleton]; omega)
      simpa [receivedByte] using this.symm
    subst fifth_eq
    have one_or_two : first = 1 ∨ first = 2 := by
      rcases (show first.toNat = 1 ∨ first.toNat = 2 by omega) with one | two
      · exact .inl (UInt8.toNat_inj.mp one)
      · exact .inr (UInt8.toNat_inj.mp two)
    rcases one_or_two with rfl | rfl
    · exact .inr (.inr ⟨tail, @Quiet.of_append [0] tail quietFifth, .inl rfl⟩)
    · cases tail with
      | nil => exact .inr (.inl rfl)
      | cons sixth tail =>
          have pairCut := whole [0, sixth] tail (by simp) (by simp) rfl
          have same := independent.received_eq singles pairCut
          have sixth_eq : sixth = 0 := by
            have := @receivedByte_eq _ _ _ _ 1 same (by rw [declared_singleton]; decide)
            simpa [receivedByte] using this.symm
          subst sixth_eq
          exact .inr (.inr ⟨tail, @Quiet.of_append [0, 0] tail quietFifth, .inr rfl⟩)

theorem unsplittable {stream : List UInt8} (independent : SegmentationIndependent stream) :
    Unsplittable stream := by
  induction length : stream.length using Nat.strong_induction_on generalizing stream with
  | _ n ih =>
      match stream with
      | [] => exact .inl quiet_nil
      | [byte] => exact .inl (quiet_singleton byte)
      | first :: second :: rest =>
          by_cases zero : first = 0
          · subst zero
            have shorter : SegmentationIndependent (second :: rest) :=
              @of_empty (second :: rest) [0] independent (by simp) (by simp [packetHeaderLength])
                (by decide)
            exact independent.unsplittable_zero_cons
              (ih (second :: rest).length (by simp [← length]) shorter rfl)
          · have rest_shorter : rest.length < n := by
              simp only [List.length_cons] at length
              omega
            have shorter : Unsplittable rest :=
              ih rest.length rest_shorter (independent.of_cut (Cut.singles rest zero)) rfl
            have second_zero := independent.second_eq_zero zero shorter
            subst second_zero
            exact independent.unsplittable_of_quiet_rest zero
              (independent.quiet_rest zero shorter)

end SegmentationIndependent

/-! ## Streams that are received alike however they are cut -/

theorem quiet_zeros {rest : List UInt8} (quiet : Quiet rest) (count : Nat) :
    Quiet (List.replicate count 0 ++ rest) := by
  induction count with
  | zero => exact quiet
  | succ count ih => exact ih.zero_cons

theorem cut_zeros {chunk later rest : List UInt8} {count : Nat}
    (joined : chunk ++ later = List.replicate count 0 ++ rest) (fits : chunk.length ≤ count) :
    (∀ byte ∈ chunk, byte = 0) ∧ later = List.replicate (count - chunk.length) 0 ++ rest := by
  have split : List.replicate count (0 : UInt8) ++ rest =
      List.replicate chunk.length 0 ++ (List.replicate (count - chunk.length) 0 ++ rest) := by
    rw [← List.append_assoc, List.replicate_append_replicate]
    congr 2
    omega
  rw [split] at joined
  rcases List.append_inj joined (by simp) with ⟨zeros, remaining⟩
  refine ⟨?_, remaining⟩
  intro byte byte_mem
  rw [zeros] at byte_mem
  exact List.eq_of_mem_replicate byte_mem

theorem declared_cons_zeros {first : UInt8} {zeros : List UInt8}
    (zero : ∀ byte ∈ zeros, byte = 0) : declared (first :: zeros) = first.toNat := by
  simp only [declared, List.getD_cons_zero, List.getD_cons_succ, getD_of_zeros zero]
  simp

theorem received_zeros {first : UInt8} {zeros part : List UInt8} (small : first.toNat ≤ 2)
    (zero : ∀ byte ∈ zeros, byte = 0) (partNonempty : 1 ≤ part.length)
    (partZero : ∀ byte ∈ part, byte = 0) :
    received (first :: zeros) part = List.replicate first.toNat 0 := by
  have announced := @declared_cons_zeros first zeros zero
  apply List.ext_getElem?
  intro i
  rcases Nat.lt_or_ge i first.toNat with inside | outside
  · rw [received_getElem? (by rwa [announced]), List.getElem?_replicate, if_pos inside,
      Option.some.injEq, receivedByte]
    by_cases arrived : i < part.length
    · rw [if_pos arrived]
      exact getD_of_zeros partZero i
    · have one : i = 1 := by omega
      subst one
      rw [if_neg arrived, List.getD_cons_succ, getD_of_zeros zero]
      simp
  · rw [List.getElem?_eq_none (by rwa [length_received, announced]),
      List.getElem?_eq_none (by simpa using outside)]

/-- A length of one or two in front of enough zeros: the message is zero and nothing follows. -/
theorem messages_of_zeros {first : UInt8} {count : Nat} {rest : List UInt8}
    {chunks : List (List UInt8)} (small : first = 1 ∨ first = 2) (quiet : Quiet rest)
    (four : 4 ≤ count) (enough : 3 + first.toNat ≤ count ∨ rest = [])
    (fits : start.Fits chunks)
    (flattened : chunks.flatten = first :: (List.replicate count 0 ++ rest)) :
    (start.run chunks).2 = [List.replicate first.toNat 0] := by
  have bounds : 1 ≤ first.toNat ∧ first.toNat ≤ 2 := by
    rcases small with rfl | rfl <;> decide
  rcases chunks with _ | ⟨_ | ⟨head, zeros⟩, later⟩
  · simp at flattened
  · exact absurd fits.1.1 (by simp)
  · rcases fits with ⟨⟨_, headerFits⟩, laterFits⟩
    rw [List.flatten_cons, List.cons_append] at flattened
    rcases List.cons.inj flattened with ⟨rfl, joined⟩
    simp only [List.length_cons, requested_start, packetHeaderLength] at headerFits
    rcases cut_zeros joined (by omega) with ⟨zero, laterFlattened⟩
    have announced := @declared_cons_zeros head zeros zero
    have afterHeader := @complete_start_body (head :: zeros) (by omega)
      (by simp only [announced, maxMsgSize]; omega)
    rw [afterHeader, announced] at laterFits
    simp only [run, afterHeader, announced, Option.toList_none, List.nil_append]
    rcases later with _ | ⟨part, later⟩
    · have := congrArg List.length laterFlattened
      simp only [List.flatten_nil, List.length_nil, List.length_append,
        List.length_replicate] at this
      omega
    · rcases laterFits with ⟨⟨partNonempty, partFits⟩, restFits⟩
      rw [requested_body] at partFits
      rw [List.flatten_cons] at laterFlattened
      have partZeros : part.length ≤ count - zeros.length := by
        rcases enough with enough | rfl
        · omega
        · have := congrArg List.length laterFlattened
          simp only [List.length_append, List.length_replicate, List.length_nil] at this
          omega
      rcases cut_zeros laterFlattened partZeros with ⟨partZero, restFlattened⟩
      have afterPart := @complete_body head.toNat (getPoolMessage.place 0 (head :: zeros)) part
        (by omega) (by simp only [maxMsgSize]; omega)
      rw [afterPart] at restFits
      have message := received_zeros bounds.2 zero partNonempty partZero
      rw [received, announced] at message
      simp only [run, afterPart, Option.toList_some, message, List.singleton_append]
      rw [messages_of_quiet .start restFits (restFlattened ▸ quiet_zeros quiet _)]

theorem independent_of_unsplittable {stream : List UInt8} (unsplittable : Unsplittable stream) :
    SegmentationIndependent stream := by
  rcases unsplittable with quiet | rfl | ⟨rest, quiet, rfl | rfl⟩
  · exact .of_forall fun chunks fits flattened =>
      messages_of_quiet .start fits (flattened ▸ quiet)
  · exact .of_forall fun chunks fits flattened =>
      @messages_of_zeros 2 4 [] chunks (.inr rfl) quiet_nil (by omega) (.inr rfl) fits flattened
  · exact .of_forall fun chunks fits flattened =>
      @messages_of_zeros 1 4 rest chunks (.inl rfl) quiet (by omega) (.inl (by decide)) fits
        flattened
  · exact .of_forall fun chunks fits flattened =>
      @messages_of_zeros 2 5 rest chunks (.inr rfl) quiet (by omega) (.inl (by decide)) fits
        flattened

/-- The messages of a stream are independent of the way it is cut for exactly the unsplittable
streams. -/
theorem segmentationIndependent_iff (stream : List UInt8) :
    SegmentationIndependent stream ↔ Unsplittable stream :=
  ⟨fun independent => independent.unsplittable, independent_of_unsplittable⟩

/-- A body of two bytes, received whole and received in two parts. -/
theorem not_segmentationIndependent_two_bytes :
    ¬SegmentationIndependent [2, 0, 0, 0, 97, 98] := by
  intro independent
  have whole : Cut [2, 0, 0, 0, 97, 98] [2, 0, 0, 0] [97, 98] [] := by
    constructor <;> decide
  have parts : Cut [2, 0, 0, 0, 97, 98] [2, 0, 0, 0] [97] [98] := by
    constructor <;> decide
  have second := @receivedByte_eq _ _ _ _ 1 (independent.received_eq whole parts) (by decide)
  simp [receivedByte] at second

end Connection

end SunPush
