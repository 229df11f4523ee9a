import SunPush.Peers.WebServer
import SunPush.Receiver.Framing

/-!
# What the web server takes off its connection

`msg_handler` reads the length of a frame and does not use it: how many bytes of
the payload are read follows from its first two bytes.  The scripts die on a
single byte that is the character `0`, and a wrong key closes the socket.
-/

namespace SunPush

namespace WebServer

/-- The bytes the handlers read behind the category and the protocol. -/
def bodyRead (category protocol : UInt8) : Nat :=
  if category = 50 then if protocol = 1 then 32 else if protocol = 52 then 196 else 0 else 0

/-- A byte that is read by itself is the character `0`: the category, the protocol or the type of an
order. -/
def Dies (category protocol : UInt8) (body : List UInt8) : Prop :=
  category = 0x30 ∨ protocol = 0x30 ∨ (category = 50 ∧ protocol = 52 ∧ body.head? = some 0x30)

instance (category protocol : UInt8) (body : List UInt8) :
    Decidable (Dies category protocol body) :=
  inferInstanceAs (Decidable (_ ∨ _ ∨ _))

/-- An authentication with another key. -/
def Rejects (category protocol : UInt8) (body : List UInt8) : Prop :=
  category = 50 ∧ protocol = 1 ∧ body.take 32 ≠ authStr

instance (category protocol : UInt8) (body : List UInt8) :
    Decidable (Rejects category protocol body) :=
  inferInstanceAs (Decidable (_ ∧ _ ∧ _))

/-- The handlers read exactly the bytes of the payload. -/
def ReadsWhole : List UInt8 → Prop
  | category :: protocol :: body =>
      ¬Dies category protocol body ∧ body.length = bodyRead category protocol
  | _ => False

instance : DecidablePred ReadsWhole
  | category :: protocol :: body =>
      inferInstanceAs (Decidable (¬Dies category protocol body ∧ _ = bodyRead category protocol))
  | [] | [_] => inferInstanceAs (Decidable False)

/-- The payload makes the web server close its socket. -/
def Closes : List UInt8 → Prop
  | category :: protocol :: body => Rejects category protocol body
  | _ => False

instance : DecidablePred Closes
  | category :: protocol :: body => inferInstanceAs (Decidable (Rejects category protocol body))
  | [] | [_] => inferInstanceAs (Decidable False)

section Size

variable (size : IntSize)

/-- `msg_handler` is called `count` times. -/
def handleMessages (size : IntSize) : Nat → Socket → Option Socket
  | 0, socket => some socket
  | count + 1, socket => (msgHandler size socket).bind (handleMessages size count)

/-- Each call takes exactly one frame: before and after each, the frames left and what follows them
are still to be read.  `output` is what has been written before. -/
def StaysInFrame (payloads : List (List UInt8)) (more : List UInt8) (output : List (List UInt8)) :
    Prop :=
  ∀ count ≤ payloads.length, ∃ socket,
    handleMessages size count (.listening (wire payloads ++ more) output) = some socket ∧
      socket.input = wire (payloads.drop count) ++ more

/-! ## One call -/

theorem exists_append {stream : List UInt8} {count : Nat} (enough : count ≤ stream.length) :
    ∃ front rest, stream = front ++ rest ∧ front.length = count ∧
      rest.length = stream.length - count :=
  ⟨stream.take count, stream.drop count, (List.take_append_drop count stream).symm,
    List.length_take_of_le enough, List.length_drop⟩

/-- The constructor of an order reads 196 bytes, unless it dies on the first. -/
theorem construct_drop {stream : List UInt8} (enough : 196 ≤ stream.length)
    (output : List (List UInt8)) :
    (stream.head? = some 0x30 ∧
        TestOrderSyn.construct size (.listening stream output) = none) ∨
      (stream.head? ≠ some 0x30 ∧ ∃ order,
        TestOrderSyn.construct size (.listening stream output) =
          some (order, .listening (stream.drop 196) output)) := by
  cases stream with
  | nil => simp at enough
  | cons byOrderType stream =>
      simp only [List.length_cons] at enough
      rcases @exists_append stream 4 (by omega) with ⟨con, stream, rfl, con_exact, left⟩
      rcases @exists_append stream 4 (by omega) with ⟨no, stream, rfl, no_exact, left⟩
      rcases @exists_append stream 4 (by omega) with ⟨posX, stream, rfl, posX_exact, left⟩
      rcases @exists_append stream 4 (by omega) with ⟨posY, stream, rfl, posY_exact, left⟩
      rcases @exists_append stream 11 (by omega) with ⟨phone, stream, rfl, phone_exact, left⟩
      rcases @exists_append stream 168 (by omega) with ⟨test, stream, rfl, test_exact, left⟩
      have constructed := TestOrderSyn.construct_append size byOrderType con_exact no_exact
        posX_exact posY_exact phone_exact test_exact stream output
      have behind : (byOrderType :: (con ++ (no ++ (posX ++ (posY ++ (phone ++
          (test ++ stream))))))).drop 196 = stream := by
        have joined : byOrderType :: (con ++ (no ++ (posX ++ (posY ++ (phone ++
            (test ++ stream)))))) =
            (byOrderType :: (con ++ no ++ posX ++ posY ++ phone ++ test)) ++ stream := by simp
        rw [joined]
        apply List.drop_left'
        simp only [List.length_cons, List.length_append]
        omega
      by_cases zero : byOrderType = 0x30
      · left
        refine ⟨by rw [zero]; rfl, ?_⟩
        rw [constructed, if_pos zero]
      · right
        refine ⟨by simpa using zero, ?_⟩
        rw [constructed, if_neg zero, behind]
        exact ⟨_, rfl⟩

theorem handlerOrder_drop {stream : List UInt8} (enough : 196 ≤ stream.length)
    (output : List (List UInt8)) :
    (stream.head? = some 0x30 ∧
        handlerS2WTestOrderSyn size (.listening stream output) = none) ∨
      (stream.head? ≠ some 0x30 ∧ ∃ written,
        handlerS2WTestOrderSyn size (.listening stream output) =
          some ⟨stream.drop 196, written, false⟩) := by
  rcases construct_drop size enough output with ⟨zero, dies⟩ | ⟨truthy, order, constructed⟩
  · left
    rw [handlerS2WTestOrderSyn, dies]
    exact ⟨zero, rfl⟩
  · right
    rw [handlerS2WTestOrderSyn, constructed]
    exact ⟨truthy, _, rfl⟩

theorem handlerAuth_drop {stream : List UInt8} (enough : 32 ≤ stream.length)
    (output : List (List UInt8)) :
    ∃ written, handlerS2WPushSvrAuthSyn size (.listening stream output) =
      some ⟨stream.drop 32, written, decide (stream.take 32 ≠ authStr)⟩ := by
  rcases exists_append enough with ⟨key, rest, rfl, exact, _⟩
  have read := readMsgStr_append exact (by omega) rest output
  rw [List.take_left' exact, List.drop_left' exact]
  have differ : (BitVec.ofNat size.bits 1 = BitVec.ofNat size.bits 0) = False := by
    cases size <;> simp [IntSize.bits]
  simp only [handlerS2WPushSvrAuthSyn, read, Option.bind_eq_bind, Option.bind_some]
  by_cases same : key = authStr
  · simp only [same, if_true, differ, if_false]
    exact ⟨_, rfl⟩
  · have closes : decide (key ≠ authStr) = true := decide_eq_true same
    simp only [if_neg same, if_true]
    rw [closes]
    exact ⟨_, rfl⟩

theorem ofNat_byte_eq_iff (byte value : UInt8) :
    BitVec.ofNat size.bits byte.toNat = BitVec.ofNat size.bits value.toNat ↔ byte = value := by
  have wide := two_pow_le_bits size
  have byte_lt := byte.toNat_lt
  have value_lt := value.toNat_lt
  constructor
  · intro same
    have values := congrArg BitVec.toNat same
    rw [BitVec.toNat_ofNat, BitVec.toNat_ofNat, Nat.mod_eq_of_lt (by omega),
      Nat.mod_eq_of_lt (by omega)] at values
    exact UInt8.toNat_inj.mp values
  · intro same
    rw [same]

/-- The two switches, on the bytes themselves. -/
theorem msgHandler_eq {header : List UInt8} (exact : header.length = 4) {category protocol : UInt8}
    (category_truthy : category ≠ 0x30) (protocol_truthy : protocol ≠ 0x30) (stream : List UInt8)
    (output : List (List UInt8)) :
    msgHandler size (.listening (header ++ category :: protocol :: stream) output) =
      if category = 50 then
        if protocol = 1 then handlerS2WPushSvrAuthSyn size (.listening stream output)
        else if protocol = 52 then handlerS2WTestOrderSyn size (.listening stream output)
        else some (.listening stream output)
      else some (.listening stream output) := by
  have base := MsgBase.readPack_cons size category_truthy protocol_truthy stream output
  have ws := ofNat_byte_eq_iff size category 50
  have auth := ofNat_byte_eq_iff size protocol 1
  have order := ofNat_byte_eq_iff size protocol 52
  simp only [msgHandler, readMsgInt_append size exact, base, Option.bind_eq_bind,
    Option.bind_some, ← ws, ← auth, ← order]
  rfl

theorem msgHandler_zero {header : List UInt8} (exact : header.length = 4)
    {category protocol : UInt8} (zero : category = 0x30 ∨ protocol = 0x30) (stream : List UInt8)
    (output : List (List UInt8)) :
    msgHandler size (.listening (header ++ category :: protocol :: stream) output) = none := by
  by_cases category_zero : category = 0x30
  · simp only [msgHandler, readMsgInt_append size exact, MsgBase.readPack, readMsgByte_cons,
      if_pos category_zero, Option.bind_eq_bind, Option.bind_some, Option.bind_none]
  · simp only [msgHandler, readMsgInt_append size exact, MsgBase.readPack, readMsgByte_cons,
      if_neg category_zero, if_pos (zero.resolve_left category_zero), Option.bind_eq_bind,
      Option.bind_some, Option.bind_none]

/-- What a call takes off the stream behind the category and the protocol, if it does not die. -/
theorem msgHandler_cons {header stream : List UInt8} (exact : header.length = 4)
    (category protocol : UInt8) (enough : 196 ≤ stream.length) (output : List (List UInt8)) :
    (Dies category protocol stream ∧
        msgHandler size (.listening (header ++ category :: protocol :: stream) output) = none) ∨
      (¬Dies category protocol stream ∧ ∃ written,
        msgHandler size (.listening (header ++ category :: protocol :: stream) output) =
          some ⟨stream.drop (bodyRead category protocol), written,
            decide (Rejects category protocol stream)⟩) := by
  by_cases zero : category = 0x30 ∨ protocol = 0x30
  · left
    refine ⟨?_, msgHandler_zero size exact zero stream output⟩
    rcases zero with first | second
    · exact .inl first
    · exact .inr (.inl second)
  · rw [not_or] at zero
    rw [msgHandler_eq size exact zero.1 zero.2]
    by_cases ws_data : category = 50
    · subst ws_data
      by_cases auth_syn : protocol = 1
      · subst auth_syn
        right
        refine ⟨by simp [Dies], ?_⟩
        rcases handlerAuth_drop size (by omega : 32 ≤ stream.length) output with ⟨written, read⟩
        rw [if_pos rfl, if_pos rfl, read]
        exact ⟨written, by simp [bodyRead, Rejects]⟩
      · rw [if_pos rfl, if_neg auth_syn]
        by_cases order_syn : protocol = 52
        · subst order_syn
          rw [if_pos rfl]
          rcases handlerOrder_drop size enough output with ⟨first, dies⟩ | ⟨first, written, read⟩
          · left
            exact ⟨.inr (.inr ⟨rfl, rfl, first⟩), dies⟩
          · right
            refine ⟨by simpa [Dies] using first, ?_⟩
            rw [read]
            exact ⟨written, by simp [bodyRead, Rejects]⟩
        · right
          refine ⟨by simp [Dies, zero.2, order_syn], ?_⟩
          rw [if_neg order_syn]
          exact ⟨output, by simp [bodyRead, Rejects, auth_syn, order_syn, Socket.listening]⟩
    · right
      refine ⟨by simp [Dies, zero.1, zero.2, ws_data], ?_⟩
      rw [if_neg ws_data]
      exact ⟨output, by simp [bodyRead, Rejects, ws_data, Socket.listening]⟩

/-! ## Frames -/

theorem bodyRead_le (category protocol : UInt8) : bodyRead category protocol ≤ 196 := by
  simp only [bodyRead]
  split
  · split
    · omega
    · split <;> omega
  · omega

/-- The first byte of an order is one of its own. -/
theorem dies_append_iff {category protocol : UInt8} {body : List UInt8}
    (whole : body.length = bodyRead category protocol) (rest : List UInt8) :
    Dies category protocol (body ++ rest) ↔ Dies category protocol body := by
  cases body with
  | nil =>
      have none : ¬(category = 50 ∧ protocol = 52) := by
        rintro ⟨rfl, rfl⟩
        simp [bodyRead] at whole
      simp only [Dies, ← and_assoc, none, false_and]
  | cons byte body => rfl

theorem rejects_append_iff {category protocol : UInt8} {body : List UInt8}
    (whole : body.length = bodyRead category protocol) (rest : List UInt8) :
    Rejects category protocol (body ++ rest) ↔ Rejects category protocol body := by
  simp only [Rejects]
  apply and_congr_right
  intro ws_data
  apply and_congr_right
  intro auth_syn
  have length : body.length = 32 := by rw [whole, ws_data, auth_syn]; rfl
  rw [List.take_left' length, List.take_of_length_le (by omega)]

/-- The call for a frame takes exactly the frame when the handlers read the whole of its payload. -/
theorem msgHandler_frame {payload : List UInt8} (two : 2 ≤ payload.length) {rest : List UInt8}
    (enough : 196 ≤ rest.length) (output : List (List UInt8)) :
    (ReadsWhole payload ∧ ∃ written closed, (closed = true ↔ Closes payload) ∧
        msgHandler size (.listening (frame payload ++ rest) output) =
          some ⟨rest, written, closed⟩) ∨
      (¬ReadsWhole payload ∧ ∀ socket,
        msgHandler size (.listening (frame payload ++ rest) output) = some socket →
          socket.input ≠ rest) := by
  rcases payload with _ | ⟨category, _ | ⟨protocol, body⟩⟩
  · simp at two
  · simp at two
  · have joined : frame (category :: protocol :: body) ++ rest =
        LittleEndian.encode 4 (category :: protocol :: body).length ++
          category :: protocol :: (body ++ rest) := by
      simp [frame]
    have call := @msgHandler_cons size (LittleEndian.encode 4 _) (body ++ rest)
      (LittleEndian.length_encode 4 (category :: protocol :: body).length) category protocol
      (by rw [List.length_append]; omega) output
    have bound := bodyRead_le category protocol
    rw [joined]
    by_cases whole : body.length = bodyRead category protocol
    · rcases call with ⟨dies, handled⟩ | ⟨lives, written, handled⟩
      · right
        rw [handled]
        refine ⟨fun reads => reads.1 ((dies_append_iff whole rest).mp dies), ?_⟩
        intro socket impossible
        contradiction
      · left
        refine ⟨⟨fun dies => lives ((dies_append_iff whole rest).mpr dies), whole⟩, written,
          decide (Rejects category protocol (body ++ rest)), ?_, ?_⟩
        · rw [decide_eq_true_iff]
          exact rejects_append_iff whole rest
        · rw [handled, List.drop_left' whole]
    · right
      refine ⟨fun reads => whole reads.2, ?_⟩
      intro socket taken same
      rcases call with ⟨_, handled⟩ | ⟨_, written, handled⟩
      · rw [handled] at taken
        contradiction
      · rw [handled, Option.some.injEq] at taken
        subst taken
        have lengths := congrArg List.length same
        rw [List.length_drop, List.length_append] at lengths
        omega

/-- Nothing is read from a closed socket. -/
theorem msgHandler_closed {socket : Socket} (closed : socket.closed = true) :
    msgHandler size socket = none := by
  simp [msgHandler, readMsgInt, socketRead, closed, orDie]

theorem not_staysInFrame {payload : List UInt8} {payloads : List (List UInt8)}
    {more : List UInt8} {output : List (List UInt8)}
    (astray : ∀ socket, msgHandler size (.listening (wire (payload :: payloads) ++ more) output) =
      some socket → socket.input ≠ wire payloads ++ more) :
    ¬StaysInFrame size (payload :: payloads) more output := by
  intro stays
  rcases stays 1 (by simp) with ⟨socket, handled, input⟩
  rcases Option.bind_eq_some_iff.mp handled with ⟨between, called, rest⟩
  rw [handleMessages, Option.some.injEq] at rest
  subst rest
  exact astray between called input

/-- Behind a call that took its frame, the others are calls on the socket it leaves. -/
theorem staysInFrame_cons_iff {payload : List UInt8} {payloads : List (List UInt8)}
    {more : List UInt8} {output written : List (List UInt8)} {closed : Bool}
    (called : msgHandler size (.listening (wire (payload :: payloads) ++ more) output) =
      some ⟨wire payloads ++ more, written, closed⟩) :
    StaysInFrame size (payload :: payloads) more output ↔
      payloads = [] ∨ (closed = false ∧ StaysInFrame size payloads more written) := by
  have next (count : Nat) :
      handleMessages size (count + 1) (.listening (wire (payload :: payloads) ++ more) output) =
        handleMessages size count ⟨wire payloads ++ more, written, closed⟩ := by
    rw [handleMessages, called, Option.bind_some]
  constructor
  · intro stays
    cases payloads with
    | nil => exact .inl rfl
    | cons other payloads =>
        right
        have opened : closed = false := by
          rcases stays 2 (by simp) with ⟨socket, handled, _⟩
          rw [next, handleMessages] at handled
          rcases Option.bind_eq_some_iff.mp handled with ⟨between, second, _⟩
          rw [← Bool.not_eq_true]
          intro shut
          rw [msgHandler_closed size shut] at second
          contradiction
        refine ⟨opened, ?_⟩
        intro count count_le
        have rest := stays (count + 1) (by simpa using count_le)
        rwa [next, opened, List.drop_succ_cons] at rest
  · intro rest count count_le
    cases count with
    | zero => exact ⟨_, rfl, rfl⟩
    | succ count =>
        rw [next, List.drop_succ_cons]
        rcases rest with none | ⟨opened, stays⟩
        · subst none
          have last : count = 0 := by simpa using count_le
          subst last
          exact ⟨_, rfl, rfl⟩
        · subst opened
          exact stays count (by simpa using count_le)

/-- The calls keep to the frames exactly when the handlers read the whole of each payload, and only
the last may make the server close its socket. -/
theorem staysInFrame_iff {payloads : List (List UInt8)}
    (wellFormed : ∀ payload ∈ payloads, 2 ≤ payload.length) {more : List UInt8}
    (enough : 196 ≤ more.length) (output : List (List UInt8)) :
    StaysInFrame size payloads more output ↔
      (∀ payload ∈ payloads, ReadsWhole payload) ∧
        ∀ payload ∈ payloads.dropLast, ¬Closes payload := by
  induction payloads generalizing output with
  | nil =>
      refine iff_of_true ?_ (by simp)
      intro count count_le
      have none : count = 0 := by simpa using count_le
      subst none
      exact ⟨_, rfl, rfl⟩
  | cons payload payloads ih =>
      have later := ih fun other other_mem => wellFormed other (List.mem_cons_of_mem _ other_mem)
      have first := @msgHandler_frame size payload (wellFormed payload List.mem_cons_self)
        (wire payloads ++ more) (by rw [List.length_append]; omega) output
      rw [← List.append_assoc, ← wire_cons] at first
      rcases first with ⟨whole, written, closed, closes, called⟩ | ⟨part, astray⟩
      · rw [staysInFrame_cons_iff size called, later written]
        cases payloads with
        | nil => simp [whole]
        | cons other payloads =>
            have all := @List.forall_mem_cons _ ReadsWhole payload (other :: payloads)
            have opened := @List.forall_mem_cons _ (fun payload => ¬Closes payload) payload
              (other :: payloads).dropLast
            rw [List.dropLast_cons_of_ne_nil (List.cons_ne_nil other payloads), all, opened,
              ← closes, Bool.not_eq_true]
            simp only [reduceCtorEq, false_or, whole, true_and]
            exact and_left_comm
      · refine iff_of_false (not_staysInFrame size astray) ?_
        rintro ⟨all, _⟩
        exact part (all payload List.mem_cons_self)

end Size

/-- An authentication, an order, a message of an unknown protocol that is nothing but its category
and protocol, and an authentication with another key. -/
def samplePayloads : List (List UInt8) :=
  [50 :: 1 :: authStr, 50 :: 52 :: List.replicate 196 1, [50, 7], 50 :: 1 :: List.replicate 32 1]

/-- The other key may only come last. -/
theorem staysInFrame_iff_sample :
    StaysInFrame .eight samplePayloads (List.replicate 196 0) [] ∧
      ¬StaysInFrame .eight samplePayloads.reverse (List.replicate 196 0) [] := by
  have enough : 196 ≤ (List.replicate 196 (0 : UInt8)).length := by
    rw [List.length_replicate]
  have wellFormed : ∀ payload ∈ samplePayloads, 2 ≤ payload.length := by
    decide +kernel
  constructor
  · exact (staysInFrame_iff .eight wellFormed enough []).mpr (by decide +kernel)
  · have reversed : ∀ payload ∈ samplePayloads.reverse, 2 ≤ payload.length :=
      fun payload mem => wellFormed payload (List.mem_reverse.mp mem)
    rw [staysInFrame_iff .eight reversed enough]
    decide +kernel

/-- The third byte of a message of an unknown protocol is left to be read as a length. -/
theorem not_staysInFrame_unknown :
    ¬StaysInFrame .eight [[50, 7, 1]] (List.replicate 196 0) [] := by
  apply not_staysInFrame
  intro socket called
  have enough : 196 ≤ (wire [] ++ List.replicate 196 0).length := by
    rw [wire_nil, List.nil_append, List.length_replicate]
  rcases @msgHandler_frame .eight [50, 7, 1] (by decide) _ enough [] with ⟨whole, _⟩ | ⟨_, astray⟩
  · exact absurd whole.2 (by decide)
  · apply astray socket
    rwa [wire_cons, List.append_assoc] at called

end WebServer

end SunPush
