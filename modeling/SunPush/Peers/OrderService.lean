import SunPush.Library.Channels
import SunPush.Library.Transition
import SunPush.Peers.OrderForwarding

/-!
# Clients, push server and web server

Any number of clients and the web server's script around one push server.  Whole
messages travel on reliable FIFO channels; deliveries, new connections and
closes come in any order.  No connection id is used twice.

The push server runs the callbacks of `ClientAcceptor` and `WebSvrConnector`; a
`::Send` reaches the peer if the connection is open.  Closing is left to the
steps that close a connection, which may happen at any time, so the calls of
`CloseSocket` and `AsyncClose` do nothing here.  The script accepts one
connection, confirms it and then handles message after message.
-/

namespace SunPush

open CInteger LittleEndian

namespace OrderService

inductive Peer where
  | client
  | webServer
  deriving DecidableEq, Repr

/-- A connection id that is or was in use. -/
structure Line where
  peer : Peer
  isOpen : Bool
  deriving DecidableEq, Repr

inductive Script where
  /-- Before `socket_accept` returns. -/
  | listening
  | serving (connectID : Int) (socket : WebServer.Socket)
  | ended

structure State where
  server : Server
  lines : Int → Option Line
  /-- The messages of clients on their way to the push server. -/
  fromClients : List (Int × List UInt8)
  /-- The frames the web server has written, on their way to the push server. -/
  fromWebServer : List (Int × List UInt8)
  /-- The frames on their way from the push server. -/
  fromServer : List (Int × List UInt8)
  script : Script
  /-- Every message of a client that was passed to `OnReadComplete`. -/
  received : List (Int × List UInt8)
  /-- Every frame the push server has sent. -/
  sent : List (Int × List UInt8)

/-- What can happen.  `rest` is what the message buffer holds behind a received message, and `stack`
the stack of the push server when a callback is called. -/
inductive Label where
  | accept (connectID : Int) (memory : Bool) (stack : Memory)
  | connect (connectID : Int) (succeeds : Bool)
  | close (connectID : Int)
  | clientSends (connectID : Int) (message : List UInt8)
  | clientReceives (connectID : Int)
  | serverReceivesRequest (connectID : Int) (rest stack : Memory)
  | serverReceivesAnswer (connectID : Int) (rest stack : Memory)
  | webServerAccepts (connectID : Int)
  | webServerReceives
  | webServerEnds

namespace State

def isOpen (state : State) (connectID : Int) (peer : Peer) : Bool :=
  state.lines connectID = some ⟨peer, true⟩

def setLine (state : State) (connectID : Int) (line : Line) : State :=
  { state with lines := Function.update state.lines connectID (some line) }

def withStack (state : State) (stack : Memory) : State :=
  { state with server := { state.server with stack } }

/-- Perform one call of a callback. -/
def transmit (state : State) : ApiCall → State
  | .send connectID encode =>
      let found := (state.lines connectID).any Line.isOpen
      let call := encode false found
      match call.sent with
      | none => state
      | some length =>
          let frame := (call.sendBuf state.server.stack).read 0 length.toNat
          { state with
            fromServer := state.fromServer ++ [(connectID, frame)]
            sent := state.sent ++ [(connectID, frame)] }
  | _ => state

/-- The state when a callback has returned and its calls are performed. -/
def finish (state : State) (result : Server × List ApiCall) : State :=
  result.2.foldl transmit { state with server := result.1 }

/-- The web server has written `frames`. -/
def answers (state : State) (connectID : Int) (frames : List (List UInt8)) : State :=
  { state with
    fromWebServer := state.fromWebServer ++ frames.map fun frame => (connectID, frame) }

end State

/-- The buffer after a message was received at its start. -/
def buffer (rest : Memory) (message : List UInt8) : Memory :=
  rest.write 0 message

/-- The receiver of the push server passes the message on; any other it drops. -/
def Delivered (message : List UInt8) : Prop :=
  1 ≤ message.length ∧ message.length ≤ maxMsgSize

instance (message : List UInt8) : Decidable (Delivered message) :=
  inferInstanceAs (Decidable (_ ∧ _))

def step (size : WebServer.IntSize) (state : State) : Label → Option State
  | .accept connectID memory stack =>
      if state.lines connectID = none ∧ toLong connectID = connectID then
        let state := (state.setLine connectID ⟨.client, true⟩).withStack stack
        some (state.finish (state.server.onAccept connectID memory))
      else none
  | .connect connectID succeeds =>
      if state.lines connectID = none ∧ toLong connectID = connectID then
        let state := state.setLine connectID ⟨.webServer, succeeds⟩
        some (state.finish (state.server.onConnect connectID))
      else none
  | .close connectID =>
      (state.lines connectID).map fun line =>
        state.setLine connectID { line with isOpen := false }
  | .clientSends connectID message =>
      if state.isOpen connectID .client then
        some { state with fromClients := state.fromClients ++ [(connectID, message)] }
      else none
  | .clientReceives connectID =>
      if state.isOpen connectID .client then
        (Channels.take connectID state.fromServer).map fun taken =>
          { state with fromServer := taken.2 }
      else none
  | .serverReceivesRequest connectID rest stack =>
      if state.isOpen connectID .client then
        (Channels.take connectID state.fromClients).map fun (message, fromClients) =>
          let state := { state with fromClients }
          if Delivered message then
            let state :=
              { state with received := state.received ++ [(connectID, message)] }.withStack stack
            state.finish
              (state.server.onClientReadComplete connectID (buffer rest message) message.length)
          else state
      else none
  | .serverReceivesAnswer connectID rest stack =>
      if state.isOpen connectID .webServer then
        (Channels.take connectID state.fromWebServer).map fun (frame, fromWebServer) =>
          if Delivered (frame.drop 4) then
            let state := { state with fromWebServer }.withStack stack
            state.finish (state.server.onWebReadComplete connectID (buffer rest (frame.drop 4)))
          else { state with fromWebServer }
      else none
  | .webServerAccepts connectID =>
      match state.script with
      | .listening =>
          if state.isOpen connectID .webServer then
            let socket := WebServer.confirmConnect size (.listening [] [])
            some ({ state with script := .serving connectID { socket with output := [] } }.answers
              connectID socket.output)
          else none
      | _ => none
  | .webServerReceives =>
      match state.script with
      | .serving connectID socket =>
          (Channels.take connectID state.fromServer).map fun (frame, fromServer) =>
            let state := { state with fromServer }
            match WebServer.msgHandler size { socket with input := socket.input ++ frame } with
            | none => { state with script := .ended }
            | some socket =>
                { state with script := .serving connectID { socket with output := [] } }.answers
                  connectID socket.output
      | _ => none
  | .webServerEnds => some { state with script := .ended }

/-- The system when all three parties start. -/
structure Initial (state : State) : Prop where
  server : state.server.users = .empty
  lines : ∀ connectID, state.lines connectID = none
  fromClients : state.fromClients = []
  fromWebServer : state.fromWebServer = []
  fromServer : state.fromServer = []
  script : state.script = .listening
  received : state.received = []
  sent : state.sent = []

def system (size : WebServer.IntSize) : Transition.System State Label where
  Initial := Initial
  step := step size

/-! ## Messages -/

/-- The frame of a `MSG_C2S_TEST_ORDER_ACK`. -/
def isAck (frame : List UInt8) : Bool :=
  frame.getD 4 0 = csLogon ∧ frame.getD 5 0 = 54

/-- A `MSG_C2S_TEST_ORDER_SYN` of the size its handler demands. -/
def isOrder (message : List UInt8) : Bool :=
  message.length = 194 ∧ message.getD 0 0 = csLogon ∧ message.getD 1 0 = 51

/-- The `C2S_TEST_ORDER_ACK` messages sent to a connection. -/
def acks (state : State) (connectID : Int) : Nat :=
  state.sent.countP fun entry => entry.1 = connectID ∧ isAck entry.2

/-- The well-sized `C2S_TEST_ORDER_SYN` messages received from a connection. -/
def orders (state : State) (connectID : Int) : Nat :=
  state.received.countP fun entry => entry.1 = connectID ∧ isOrder entry.2

end OrderService

end SunPush
