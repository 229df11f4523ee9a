import SunPush.PushServer.UserManager
import SunPush.Session.Service

/-!
# The push server

The callbacks of `ClientAcceptor` and `WebSvrConnector`, the packet handlers of
`MsgHandler_CS.cpp` and `MsgHandler_WS.cpp` they dispatch to, and the service
that runs them.

A message object is the stack memory it occupies: its class's constructor and
the assignments of the handler store bytes over what the stack held, so a field
that is never set keeps whatever was there.
-/

namespace SunPush

open CInteger

/-! ## Messages -/

def csLogon : UInt8 := 10

def wsData : UInt8 := 50

/-- A message object whose constructor has set `m_byCategory` and `m_byProtocol`. -/
def msgBase (stack : Memory) (category protocol : UInt8) : Memory :=
  stack.write 0 [category, protocol]

/-- `TO_WS_AUTH_STR`, the 32 characters `DHF100FSKJF324XDA23K34QPZ6XVO190`. -/
def toWSAuthStr : List UInt8 :=
  [0x44, 0x48, 0x46, 0x31, 0x30, 0x30, 0x46, 0x53, 0x4B, 0x4A, 0x46, 0x33, 0x32, 0x34, 0x58, 0x44,
    0x41, 0x32, 0x33, 0x4B, 0x33, 0x34, 0x51, 0x50, 0x5A, 0x36, 0x58, 0x56, 0x4F, 0x31, 0x39, 0x30]

/-- The 42 bytes of `MSG_S2C_SVR_READY_CMD` as `OnAccept` fills it. -/
def svrReadyCmd (stack : Memory) : Memory :=
  ((((msgBase stack csLogon 0).write 2 (LittleEndian.encode 2 7)).write 4
    (LittleEndian.encode 2 8)).write 6 (LittleEndian.encode 4 666)).write 10 toWSAuthStr

/-- The 3 bytes of `MSG_S2C_USER_AUTH_ACK` with `byResult = 1`. -/
def userAuthAck (stack : Memory) : Memory :=
  (msgBase stack csLogon 2).write 2 [1]

/-- The 4 bytes of `MSG_S2C_KICK_USER_CMD`, whose `nErrorCode` is never set. -/
def kickUserCmd (stack : Memory) : Memory :=
  msgBase stack csLogon 4

/-- The 3 bytes of `MSG_C2S_TEST_ORDER_ACK` with `byOrderType = 0`. -/
def testOrderAck (stack : Memory) : Memory :=
  (msgBase stack csLogon 54).write 2 [0]

/-- The 34 bytes of `MSG_S2W_PUSHSVR_AUTH_SYN`. -/
def pushSvrAuthSyn (stack : Memory) : Memory :=
  (msgBase stack wsData 1).write 2 toWSAuthStr

/-- The 198 bytes of `MSG_S2W_TEST_ORDER_SYN`, filled from a `MSG_C2S_TEST_ORDER_SYN` of the
connection `userGID`; `strTest` is never set. -/
def testOrderSyn (stack : Memory) (userGID : Int) (msg : Memory) : Memory :=
  ((((((msgBase stack wsData 52).write 2 (msg.read 2 1)).write 3
    (LittleEndian.encode 4 (toSizeT userGID))).write 7 (msg.read 11 4)).write 11
      (msg.read 3 4)).write 15 (msg.read 7 4)).write 19 (msg.read 15 11)

/-! ## The server -/

/-- `eSVR_TYPE`. -/
inductive ServerType where
  | null
  | agent
  | push
  | data
  deriving DecidableEq, Repr

/-- The state of the push server above the socket layer. -/
structure Server where
  users : UserInfoManager
  /-- `g_iWebServerConID`. -/
  webServerConID : Int
  /-- `ServerConfig::s_emServerType`. -/
  serverType : ServerType
  /-- What the stack holds where a handler places its message objects and parameters. -/
  stack : Memory
  /-- Whether `strncpy_s` has called the runtime's invalid-parameter handler, which by default ends
  the process.  The model describes what follows if that handler returns. -/
  invalidParameter : Bool

/-- The number of bytes before the first NUL, or `count` if there is none among the first `count`
bytes. -/
def strnlen (source : Nat → UInt8) (count : Nat) : Nat :=
  ((List.range count).takeWhile fun i => source i ≠ 0).length

/-- `strncpy_s`: the destination, and whether the constraint on its size is violated. -/
def strncpyS (destination : Memory) (numberOfElements : Nat) (source : Nat → UInt8) (count : Nat) :
    Memory × Bool :=
  let length := strnlen source count
  if length < numberOfElements then
    ((destination.copy 0 source length).write length [0], false)
  else (destination.write 0 [0], true)

namespace Server

/-- `::Send` of the first `length` bytes of a message object. -/
def send (server : Server) (connectID : Int) (message : Memory) (length : UInt16) : ApiCall :=
  .send connectID fun stopSocketFlag found =>
    SunPush.send stopSocketFlag found (fun i => message i) length (fun i => server.stack i)

/-- The record of a user. -/
def info (server : Server) (user : Nat) : UserInfomation :=
  server.users.poolPlayers user

/-! ## The methods of `USER_INFOMATION` -/

def changeStatus (server : Server) (user : Nat) (newStatus : UserStatus) : Server :=
  { server with
    users := server.users.modify user fun info => { info with userStatus := newStatus } }

def sendToClient (server : Server) (user : Nat) (message : Memory) (length : UInt16) : ApiCall :=
  server.send (server.info user).connectID message length

def kickUser (server : Server) (user : Nat) : Server × List ApiCall :=
  let server := server.changeStatus user .error
  let announcement :=
    match server.serverType with
    | .push => [server.sendToClient user (kickUserCmd server.stack) 4]
    | _ => []
  (server, announcement ++ [.asyncClose (server.info user).connectID 10])

/-! ## Packet handlers -/

def handlerC2SUserAuthSyn (server : Server) (user : Nat) (msg : Memory) (size : UInt16) :
    Server × List ApiCall :=
  if size ≠ 46 then server.kickUser user
  else
    let name := strncpyS (server.info user).accountName 20 (fun i => msg (2 + i)) 32
    let server := { server with
      users := server.users.modify user fun info => { info with accountName := name.1 }
      invalidParameter := server.invalidParameter || name.2 }
    (server, [server.sendToClient user (userAuthAck server.stack) 3])

def handlerC2STestOrderSyn (server : Server) (user : Nat) (msg : Memory) (size : UInt16) :
    Server × List ApiCall :=
  if size ≠ 194 then server.kickUser user
  else
    (server, [server.send server.webServerConID
      (testOrderSyn server.stack (server.info user).connectID msg) 198])

/-- `PacketHandler::ParsePacket_CS`, with the handlers `RegisterHandler_CS` registers. -/
def parsePacketCS (server : Server) (user : Nat) (msg : Memory) (size : UInt16) :
    Server × List ApiCall :=
  if msg 0 = csLogon ∧ msg 1 = 1 then server.handlerC2SUserAuthSyn user msg size
  else if msg 0 = csLogon ∧ msg 1 = 51 then server.handlerC2STestOrderSyn user msg size
  else (server, [])

def handlerW2SWsConnectedCmd (server : Server) (connIndex : Int) : Server × List ApiCall :=
  (server, [server.send connIndex (pushSvrAuthSyn server.stack) 34])

/-- `Handler_W2S_AUTH_RESULT_ACK`, which only prints the result. -/
def handlerW2SAuthResultAck (server : Server) : Server × List ApiCall :=
  (server, [])

def handlerW2SNewOrderBrdCmd (server : Server) (msg : Memory) : Server × List ApiCall :=
  let connectID := toLong (LittleEndian.decode (msg.read 2 4))
  (server, [server.send connectID (testOrderAck server.stack) 3])

/-- `PacketHandler::ParsePacket_WS`, with the handlers `RegisterHandler_WS` registers. -/
def parsePacketWS (server : Server) (connIndex : Int) (msg : Memory) : Server × List ApiCall :=
  if msg 0 = wsData ∧ msg 1 = 0 then server.handlerW2SWsConnectedCmd connIndex
  else if msg 0 = wsData ∧ msg 1 = 2 then server.handlerW2SAuthResultAck
  else if msg 0 = wsData ∧ msg 1 = 4 then server.handlerW2SNewOrderBrdCmd msg
  else (server, [])

/-! ## Callbacks -/

def onAccept (server : Server) (connIndex : Int) (memory : Bool) : Server × List ApiCall :=
  match server.users.addUser connIndex 0 memory with
  | (none, users) => ({ server with users }, [.closeSocket connIndex])
  | (some user, users) =>
      let server := { server with users }.changeStatus user .connected
      (server, [server.send connIndex (svrReadyCmd server.stack) 42])

/-- `ClientAcceptor::OnReadComplete`. -/
def onClientReadComplete (server : Server) (connIndex : Int) (msg : Memory) (length : Int) :
    Server × List ApiCall :=
  if msg 0 ≠ csLogon then (server, [])
  else
    match server.users.findUserByConnectID connIndex with
    | none => (server, [.closeSocket connIndex])
    | some user => server.parsePacketCS user msg (UInt16.ofNat (toUInt16 length))

def onConnect (server : Server) (connIndex : Int) : Server × List ApiCall :=
  ({ server with webServerConID := connIndex }, [])

/-- `WebSvrConnector::OnReadComplete`. -/
def onWebReadComplete (server : Server) (connIndex : Int) (msg : Memory) :
    Server × List ApiCall :=
  if msg 0 ≠ wsData then (server, []) else server.parsePacketWS connIndex msg

/-- The callbacks of `ClientAcceptor` and `WebSvrConnector`; those of `OnSend` and `OnClose` are
empty. -/
def callbacks : Callbacks Server where
  onAccept _ connIndex memory server := server.onAccept connIndex memory
  onConnect _ connIndex _ server := server.onConnect connIndex
  onReadComplete owner connIndex msg length server :=
    match owner with
    | .acceptor _ => server.onClientReadComplete connIndex msg.bufMsg length
    | .connector _ => server.onWebReadComplete connIndex msg.bufMsg
  onSend _ _ _ server := (server, [])
  onClose _ _ server := server

/-- The server when it starts: the static `s_emServerType` is zero and never assigned. -/
structure Initial (server : Server) : Prop where
  users : server.users = .empty
  webServerConID : server.webServerConID = 0
  serverType : server.serverType = .null
  invalidParameter : server.invalidParameter = false

/-- The push server on its socket layer. -/
def service : Transition.System (World Server) Label :=
  World.service callbacks Initial

end Server

end SunPush
