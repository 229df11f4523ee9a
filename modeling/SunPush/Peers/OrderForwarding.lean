import SunPush.Peers.WebServer
import SunPush.PushServer.Server
import SunPush.Socket.Outgoing

/-!
# An order on its way to the web server and back

`Handler_C2S_TEST_ORDER_SYN` sends the packed `MSG_S2W_TEST_ORDER_SYN`; the web
server reads it field by field and answers with a `MSG_W2S_NEWORDERBRD_CMD`, of
which the push server reads two fields.
-/

namespace SunPush

open CInteger LittleEndian

namespace TestOrderSyn

def byOrderType (syn : Memory) : UInt8 := syn 2

def iUserGID (syn : Memory) : Int := toLong (decode (syn.read 3 4))

def iOrderNo (syn : Memory) : Int := toLong (decode (syn.read 7 4))

def iUserPosX (syn : Memory) : Int := toLong (decode (syn.read 11 4))

def iUserPosY (syn : Memory) : Int := toLong (decode (syn.read 15 4))

def strPhone (syn : Memory) : List UInt8 := syn.read 19 11

def strTest (syn : Memory) : List UInt8 := syn.read 30 168

/-- The record has the value of every field of the message. -/
structure Recovered {size : WebServer.IntSize} (syn : Memory)
    (order : WebServer.TestOrderSyn size) : Prop where
  byOrderType : order.byOrderType.toInt = (byOrderType syn).toNat
  iUsrConID : order.iUsrConID.toInt = iUserGID syn
  iOrderNo : order.iOrderNo.toInt = iOrderNo syn
  iUserPosX : order.iUserPosX.toInt = iUserPosX syn
  iUserPosY : order.iUserPosY.toInt = iUserPosY syn
  strPhone : order.strPhone = strPhone syn
  strTest : order.strTest = strTest syn

/-- The answer is one frame with which the push server acknowledges the order. -/
structure Answered (syn : Memory) (answer : List UInt8) : Prop where
  frame : decode (answer.take 4) = (answer.drop 4).length
  long_enough : (answer.drop 4).length = 10
  /-- In whatever buffer the frame's message is received: -/
  iUsrConID : ∀ (server : Server) (connIndex : Int) (buffer : Memory),
    buffer.read 0 10 = answer.drop 4 →
      server.onWebReadComplete connIndex buffer =
        (server, [server.send (iUserGID syn) (testOrderAck server.stack) 3])
  iOrder : ∀ buffer : Memory, buffer.read 0 10 = answer.drop 4 →
    toLong (decode (buffer.read 6 4)) = iOrderNo syn

/-- What `msg_handler` reads before it answers an order. -/
def readOrder (size : WebServer.IntSize) (socket : WebServer.Socket) :
    Option (WebServer.TestOrderSyn size × WebServer.Socket) := do
  let (_, socket) ← WebServer.readMsgInt size socket
  let (_, socket) ← WebServer.MsgBase.readPack size socket
  WebServer.TestOrderSyn.construct size socket

/-- `msg_handler` reads the frame and no more, recovers the fields and answers. -/
structure RoundTrip (size : WebServer.IntSize) (syn : Memory) (beyond : Nat → UInt8)
    (rest : List UInt8) (output : List (List UInt8)) : Prop where
  recovered : ∃ order,
    readOrder size (.listening (Outgoing.frame (fun i => syn i) 198 beyond ++ rest) output) =
        some (order, .listening rest output) ∧
      Recovered syn order
  answered : ∃ answer,
    WebServer.msgHandler size
        (.listening (Outgoing.frame (fun i => syn i) 198 beyond ++ rest) output) =
        some (.listening rest (output ++ [answer])) ∧
      Answered syn answer

/-- The header of the frame of an order. -/
def header (beyond : Nat → UInt8) : List UInt8 :=
  (List.range 4).map (wordBytes 198 beyond)

/-- The bytes of the message behind `byOrderType`. -/
def fields (syn : Memory) : List UInt8 :=
  syn.read 3 4 ++ (syn.read 7 4 ++ (syn.read 11 4 ++ (syn.read 15 4 ++
    (strPhone syn ++ strTest syn))))

theorem read_fields (syn : Memory) : syn.read 3 195 = fields syn := by
  have con := syn.read_add 3 4 191
  have no := syn.read_add 7 4 187
  have posX := syn.read_add 11 4 183
  have posY := syn.read_add 15 4 179
  have phone := syn.read_add 19 11 168
  exact con.trans (congrArg _ (no.trans (congrArg _ (posX.trans (congrArg _
    (posY.trans (congrArg _ phone)))))))

theorem frame_eq (syn : Memory) (beyond : Nat → UInt8) :
    Outgoing.frame (fun i => syn i) 198 beyond =
      header beyond ++ (syn 0 :: syn 1 :: syn 2 :: fields syn) := by
  have message : (List.range 198).map (fun i : Nat => syn i) = syn.read 0 198 := by
    simp [Memory.read]
  rw [Memory.read_succ, Memory.read_succ, Memory.read_succ] at message
  rw [← read_fields]
  exact congrArg (header beyond ++ ·) message

section Handling

variable {syn : Memory} (category : syn 0 = wsData) (protocol : syn 1 = 52)
  (size : WebServer.IntSize) (beyond : Nat → UInt8) (rest : List UInt8)
  (output : List (List UInt8))

include category protocol

theorem frame_append : Outgoing.frame (fun i => syn i) 198 beyond ++ rest =
    header beyond ++ (50 :: 52 :: syn 2 :: (fields syn ++ rest)) := by
  rw [frame_eq, category, protocol, List.append_assoc]
  rfl

theorem readOrder_frame :
    readOrder size (.listening (Outgoing.frame (fun i => syn i) 198 beyond ++ rest) output) =
      WebServer.TestOrderSyn.construct size
        (.listening (syn 2 :: (fields syn ++ rest)) output) := by
  have exact_header : (header beyond).length = 4 := rfl
  have base := WebServer.MsgBase.readPack_cons size (show (50 : UInt8) ≠ 0x30 by decide)
    (show (52 : UInt8) ≠ 0x30 by decide) (syn 2 :: (fields syn ++ rest)) output
  rw [frame_append category protocol]
  simp only [readOrder, WebServer.readMsgInt_append size exact_header, base, Option.bind_eq_bind,
    Option.bind_some]

theorem msgHandler_frame :
    WebServer.msgHandler size
        (.listening (Outgoing.frame (fun i => syn i) 198 beyond ++ rest) output) =
      WebServer.handlerS2WTestOrderSyn size
        (.listening (syn 2 :: (fields syn ++ rest)) output) := by
  rw [frame_append category protocol]
  exact WebServer.msgHandler_testOrder size rfl _ output

end Handling

/-- The record the web server makes of a message. -/
def record (size : WebServer.IntSize) (syn : Memory) : WebServer.TestOrderSyn size where
  byOrderType := BitVec.ofNat _ (byOrderType syn).toNat
  iUsrConID := BitVec.ofNat _ (decode (syn.read 3 4))
  iOrderNo := BitVec.ofNat _ (decode (syn.read 7 4))
  iUserPosX := BitVec.ofNat _ (decode (syn.read 11 4))
  iUserPosY := BitVec.ofNat _ (decode (syn.read 15 4))
  strPhone := strPhone syn
  strTest := strTest syn

/-- The frame the web server answers with: the two numbers go back as they came. -/
def answer (syn : Memory) : List UInt8 :=
  [10, 0, 0, 0, 50, 4] ++ syn.read 3 4 ++ syn.read 7 4

theorem construct_fields (size : WebServer.IntSize) (syn : Memory) (rest : List UInt8)
    (output : List (List UInt8)) :
    WebServer.TestOrderSyn.construct size (.listening (syn 2 :: (fields syn ++ rest)) output) =
      if byOrderType syn = 0x30 then none
      else some (record size syn, .listening rest output) := by
  have reads := WebServer.TestOrderSyn.construct_append size (syn 2)
    (syn.length_read 3 4) (syn.length_read 7 4) (syn.length_read 11 4) (syn.length_read 15 4)
    (syn.length_read 19 11) (syn.length_read 30 168) rest output
  simp only [fields, List.append_assoc]
  exact reads

theorem writePack_record (size : WebServer.IntSize) (syn : Memory) :
    WebServer.NewOrderBrdCmd.writePack size (record size syn).iUsrConID
      (record size syn).iOrderNo = answer syn := by
  have con := WebServer.packI_decode size (syn.length_read 3 4)
  have no := WebServer.packI_decode size (syn.length_read 7 4)
  simp only [WebServer.NewOrderBrdCmd.writePack, record, con, no]
  cases size <;> rfl

theorem recovered_iff (size : WebServer.IntSize) (syn : Memory) :
    Recovered syn (record size syn) ↔
      size = .four ∨
        0 ≤ iUserGID syn ∧ 0 ≤ iOrderNo syn ∧ 0 ≤ iUserPosX syn ∧ 0 ≤ iUserPosY syn := by
  have field (offset : Int) :=
    WebServer.toInt_eq_toLong_iff size (WebServer.decode_word_lt (syn.length_read offset 4))
  have con := field 3
  have no := field 7
  have posX := field 11
  have posY := field 15
  constructor
  · intro recovered
    have con_or := con.mp recovered.iUsrConID
    have no_or := no.mp recovered.iOrderNo
    have posX_or := posX.mp recovered.iUserPosX
    have posY_or := posY.mp recovered.iUserPosY
    by_cases four : size = .four
    · exact .inl four
    · exact .inr ⟨con_or.resolve_left four, no_or.resolve_left four, posX_or.resolve_left four,
        posY_or.resolve_left four⟩
  · intro condition
    exact
      { byOrderType := WebServer.toInt_byte size _
        iUsrConID := con.mpr (condition.imp_right fun nonneg => nonneg.1)
        iOrderNo := no.mpr (condition.imp_right fun nonneg => nonneg.2.1)
        iUserPosX := posX.mpr (condition.imp_right fun nonneg => nonneg.2.2.1)
        iUserPosY := posY.mpr (condition.imp_right fun nonneg => nonneg.2.2.2)
        strPhone := rfl
        strTest := rfl }

/-- The fields of a buffer that has received the answer. -/
theorem of_read_answer {syn buffer : Memory} (received : buffer.read 0 10 = (answer syn).drop 4) :
    buffer 0 = wsData ∧ buffer 1 = 4 ∧ buffer.read 2 4 = syn.read 3 4 ∧
      buffer.read 6 4 = syn.read 7 4 := by
  have fields_read := buffer.read_add 2 4 4
  rw [Memory.read_succ, Memory.read_succ] at received
  have message : (answer syn).drop 4 = 50 :: 4 :: (syn.read 3 4 ++ syn.read 7 4) := rfl
  rw [message, List.cons_eq_cons, List.cons_eq_cons] at received
  rcases received with ⟨category, protocol, numbers⟩
  have split := List.append_inj (fields_read.symm.trans numbers) (by simp)
  exact ⟨category, protocol, split⟩

theorem answered (syn : Memory) : Answered syn (answer syn) where
  frame := rfl
  long_enough := rfl
  iUsrConID := by
    intro server connIndex buffer received
    rcases of_read_answer received with ⟨category, protocol, con, _⟩
    have protocol_ne (other : UInt8) (different : other ≠ 4) : ¬(buffer 0 = wsData ∧
        buffer 1 = other) := by
      rintro ⟨_, same⟩
      exact different (same.symm.trans protocol)
    rw [Server.onWebReadComplete, if_neg (not_not_intro category), Server.parsePacketWS,
      if_neg (protocol_ne 0 (by decide)), if_neg (protocol_ne 2 (by decide)),
      if_pos ⟨category, protocol⟩, Server.handlerW2SNewOrderBrdCmd, con]
    rfl
  iOrder := by
    intro buffer received
    rw [(of_read_answer received).2.2.2]
    rfl

theorem roundTrip_iff (size : WebServer.IntSize) {syn : Memory} (category : syn 0 = wsData)
    (protocol : syn 1 = 52) (beyond : Nat → UInt8) (rest : List UInt8)
    (output : List (List UInt8)) :
    RoundTrip size syn beyond rest output ↔
      byOrderType syn ≠ 0x30 ∧
        (size = .four ∨
          0 ≤ iUserGID syn ∧ 0 ≤ iOrderNo syn ∧ 0 ≤ iUserPosX syn ∧ 0 ≤ iUserPosY syn) := by
  have read := readOrder_frame category protocol size beyond rest output
  have handled := msgHandler_frame category protocol size beyond rest output
  rw [construct_fields] at read
  rw [WebServer.handlerS2WTestOrderSyn, construct_fields] at handled
  by_cases zero : byOrderType syn = 0x30
  · rw [if_pos zero] at read
    refine iff_of_false ?_ (fun condition => condition.1 zero)
    intro roundTrip
    rcases roundTrip.recovered with ⟨order, some_read, _⟩
    rw [read] at some_read
    contradiction
  · rw [if_neg zero] at read handled
    simp only [Option.bind_eq_bind, Option.bind_some, writePack_record] at handled
    rw [← recovered_iff]
    constructor
    · intro roundTrip
      rcases roundTrip.recovered with ⟨order, some_read, recovered⟩
      rw [read, Option.some.injEq, Prod.mk.injEq] at some_read
      rw [some_read.1]
      exact ⟨zero, recovered⟩
    · rintro ⟨_, recovered⟩
      exact
        { recovered := ⟨_, read, recovered⟩
          answered := ⟨_, handled, answered syn⟩ }

/-- An order makes the round trip exactly when its type is not the character `0` and no number is
negative where the integers of the web server have 64 bits. -/
theorem roundTrip_testOrderSyn_iff (size : WebServer.IntSize) (stack : Memory) (userGID : Int)
    (msg : Memory) (beyond : Nat → UInt8) (rest : List UInt8) (output : List (List UInt8)) :
    RoundTrip size (testOrderSyn stack userGID msg) beyond rest output ↔
      byOrderType (testOrderSyn stack userGID msg) ≠ 0x30 ∧
        (size = .four ∨
          0 ≤ iUserGID (testOrderSyn stack userGID msg) ∧
            0 ≤ iOrderNo (testOrderSyn stack userGID msg) ∧
            0 ≤ iUserPosX (testOrderSyn stack userGID msg) ∧
            0 ≤ iUserPosY (testOrderSyn stack userGID msg)) :=
  roundTrip_iff size rfl rfl beyond rest output

/-- An order of type `0` ends the script on any platform; a position of -1 comes back as 4294967295
where integers have 64 bits. -/
theorem not_roundTrip :
    ¬RoundTrip .four (testOrderSyn .zero 7 (Memory.zero.write 2 [0x30])) (fun _ => 0) [] [] ∧
      ¬RoundTrip .eight (testOrderSyn .zero 7 (Memory.zero.write 3 [255, 255, 255, 255]))
        (fun _ => 0) [] [] := by
  rw [roundTrip_iff _ rfl rfl, roundTrip_iff _ rfl rfl]
  decide

end TestOrderSyn

end SunPush
