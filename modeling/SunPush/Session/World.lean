import SunPush.Socket.Receive
import SunPush.Socket.Send
import Mathlib.Data.List.AList

/-!
# Sessions, their manager and the pending handlers

The state of the socket layer: the session pool and map of `SessionManager`, the
fields of `Session` its methods test, the handlers whose operations Boost.Asio
has still to complete, and the flag of `StopSocketService`.  The upper layer is
any type `U` with the virtual callbacks of `Acceptor` and `Connector` on it.

A session is named by the number of its allocation, and the pool never hands a
number out twice; `m_connindex` is that number as a 32-bit `long`.  A destroyed
session keeps its last field values, so what a late handler reads is described;
that it does is recorded in `usedAfterDestroy`.
-/

namespace SunPush

open CInteger

inductive SocketStatus where
  | idle
  | connecting
  | connected
  | accepting
  | closed
  | error
  deriving DecidableEq, Repr

/-- The object whose callbacks a session uses: an acceptor or a connector. -/
inductive Owner where
  | acceptor (acceptor : Nat)
  | connector (connector : Nat)
  deriving DecidableEq, Repr

/-- The fields of `Session` that its methods test, and whether it is constructed. -/
structure Session where
  alive : Bool
  socketStatus : SocketStatus
  connIndex : Int
  acceptor : Option Nat
  connector : Option Nat
  readState : ReadState

namespace Session

/-- Memory of the pool that no session has been constructed in. -/
def raw : Session where
  alive := false
  socketStatus := .idle
  connIndex := 0
  acceptor := none
  connector := none
  readState := .expectHeader

/-- `Session::Session`, for the session of the given number. -/
def construct (number : Nat) : Session where
  alive := true
  socketStatus := .idle
  connIndex := toLong number
  acceptor := none
  connector := none
  readState := .expectHeader

/-- `Session::~Session`. -/
def destruct (session : Session) : Session :=
  { session with alive := false, acceptor := none, connector := none }

/-- `m_emSocketStatus == SS_CLOSED || m_emSocketStatus == SS_ERROR`. -/
def isClosed (session : Session) : Bool :=
  session.socketStatus = .closed ∨ session.socketStatus = .error

/-- `if(m_pAcceptor) ... else if(m_pConnector) ...`. -/
def owner (session : Session) : Option Owner :=
  match session.acceptor, session.connector with
  | some acceptor, _ => some (.acceptor acceptor)
  | none, some connector => some (.connector connector)
  | none, none => none

end Session

/-- A pending wait on a session's timer. -/
structure Wait where
  due : Int
  cancelled : Bool
  deriving DecidableEq, Repr

/-- A handler that Boost.Asio calls when its operation completes, with the arguments bound to
it. -/
inductive Handler where
  | handleAccept (acceptor session : Nat)
  | handleConnect (connector session : Nat)
  | handleReadSp (session : Nat) (receive : Receive)
  | handleWrite (session : Nat) (length : Int)
  | handleExit (session : Nat) (wait : Wait)
  | handleDestory (session : Nat) (wait : Wait)

namespace Handler

def session : Handler → Nat
  | handleAccept _ session => session
  | handleConnect _ session => session
  | handleReadSp session _ => session
  | handleWrite session _ => session
  | handleExit session _ => session
  | handleDestory session _ => session

/-- Cancel the handler if it waits on the timer of `target`: it will run with
`operation_aborted`. -/
def cancel (target : Nat) : Handler → Handler
  | handleExit session wait =>
      handleExit session (if session = target then { wait with cancelled := true } else wait)
  | handleDestory session wait =>
      handleDestory session (if session = target then { wait with cancelled := true } else wait)
  | handler => handler

end Handler

/-- A call of one of the upper layer's callbacks. -/
inductive Event where
  | onAccept (session : Nat)
  | onConnect (session : Nat) (errorCode : Int)
  | onReadComplete (session : Nat) (message : List UInt8)
  | onSend (session : Nat) (length : Int)
  | onClose (session : Nat)
  deriving DecidableEq, Repr

/-- The counters of `Socket` that the modelled functions change, as unbounded integers. -/
structure Statistics where
  totalSession : Int := 0
  totalListening : Int := 0
  totalConnecting : Int := 0
  totalConneced : Int := 0
  totalClosed : Int := 0
  totalDataSend : Int := 0
  totalDataRecv : Int := 0
  totalDataSendWait : Int := 0
  totalDataSendDiscard : Int := 0
  totalMsgRecvCount : Int := 0
  totalMsgSendCount : Int := 0
  deriving Repr

/-- A call that the upper layer, or a thread of its own, makes into the socket layer. -/
inductive ApiCall where
  /-- `Send`, `SendMulti` or `SendEx`: the encoder is given the stop flag and whether the session
  is found. -/
  | send (connectID : Int) (encode : Bool → Bool → SendCall)
  | closeSocket (connectID : Int)
  | asyncClose (connectID waitSeconds : Int)
  /-- `memory` says whether `AllocSession` succeeds. -/
  | startListen (acceptor : Nat) (memory : Bool)
  /-- `failed` says whether closing the listening socket reports an error. -/
  | stopListen (acceptor : Nat) (failed : Bool)
  | asyncConnect (connector : Nat) (memory : Bool)
  | disConnect (connector : Nat)

/-- The virtual functions of the classes derived from `Acceptor` and `Connector`, on the state `U`
of the upper layer.  Each but `OnClose` may call back into the socket layer.  `memory` says whether
the upper layer's own pool finds memory. -/
structure Callbacks (U : Type) where
  onAccept : (acceptor : Nat) → (connIndex : Int) → (memory : Bool) → U → U × List ApiCall
  onConnect : (connector : Nat) → (connIndex errorCode : Int) → U → U × List ApiCall
  onReadComplete : Owner → (connIndex : Int) → NetMsg → (length : Int) → U → U × List ApiCall
  onSend : Owner → (connIndex length : Int) → U → U × List ApiCall
  onClose : Owner → (connIndex : Int) → U → U

/-- The part of the socket layer's state that decides what becomes of the sessions. -/
structure Lifecycle where
  /-- `g_bStopSocketFlag`. -/
  stopSocketFlag : Bool
  /-- `Session::s_global_current_connexindex`, before it is taken for a `long`. -/
  currentConnexindex : Nat
  poolSession : Nat → Session
  mapSession : AList fun _ : Int => Nat
  /-- The handlers Boost.Asio will call. -/
  pending : List Handler
  /-- The callbacks made so far. -/
  log : List Event
  /-- Whether a handler or a callback wrapper has used a destroyed session. -/
  usedAfterDestroy : Bool

attribute [ext] Lifecycle

/-- The state of the socket layer and of the layer above it. -/
structure World (U : Type) extends Lifecycle where
  /-- `m_pConnectSession` of each connector. -/
  connectSession : Nat → Option Nat
  /-- The time in seconds. -/
  clock : Int
  statistics : Statistics
  upper : U

namespace World

variable {U : Type}

/-- Read or write fields of a session. -/
def use (world : World U) (session : Nat) : World U :=
  { world with
    usedAfterDestroy := world.usedAfterDestroy || !(world.poolSession session).alive }

/-- Change the fields of a session. -/
def modify (world : World U) (session : Nat) (change : Session → Session) : World U :=
  { world with
    poolSession :=
      Function.update world.poolSession session (change (world.poolSession session)) }

def count (world : World U) (change : Statistics → Statistics) : World U :=
  { world with statistics := change world.statistics }

/-- Start an asynchronous operation. -/
def post (world : World U) (handler : Handler) : World U :=
  { world with pending := world.pending ++ [handler] }

/-- `timer_.expires_from_now` cancels the waits on the session's timer. -/
def expiresFromNow (world : World U) (session : Nat) : World U :=
  { world with pending := world.pending.map (Handler.cancel session) }

def record (world : World U) (event : Event) : World U :=
  { world with log := world.log ++ [event] }

/-! ## `SessionManager` -/

def allocSession (world : World U) (memory : Bool) : Option (Nat × World U) :=
  if memory then
    let number := world.currentConnexindex + 1
    some (number,
      { world with
        currentConnexindex := number
        poolSession := Function.update world.poolSession number (.construct number)
        statistics :=
          { world.statistics with totalSession := world.statistics.totalSession + 1 } })
  else none

/-- `SessionManager::DestroySession`.  The destructor of the session's timer cancels its waits. -/
def destroySession (world : World U) (session : Nat) : World U :=
  (((world.use session).modify session .destruct).expiresFromNow session).count fun s =>
    { s with totalSession := s.totalSession - 1 }

def updateSession (world : World U) (connectID : Int) (session : Nat) : World U :=
  { world with mapSession := world.mapSession.insert connectID session }

def removeSession (world : World U) (connectID : Int) : World U :=
  { world with mapSession := world.mapSession.erase connectID }

def getSession (world : World U) (connectID : Int) : Option Nat :=
  world.mapSession.lookup connectID

def removeAllSession (world : World U) : World U :=
  { world.mapSession.entries.foldl (fun world entry => world.destroySession entry.2) world with
    mapSession := ∅ }

/-! ## Closing and sending -/

/-- The part of `handle_exit` that tells the session's owner and forgets it. -/
def tellClosed (callbacks : Callbacks U) (session : Nat) (world : World U) : World U :=
  let connIndex := (world.poolSession session).connIndex
  match (world.poolSession session).acceptor, (world.poolSession session).connector with
  | some acceptor, _ =>
      let world := { world.record (.onClose session) with
        upper := callbacks.onClose (.acceptor acceptor) connIndex world.upper }
      (world.count fun s => { s with totalConneced := s.totalConneced - 1 }).modify session
        fun s => { s with acceptor := none }
  | none, some connector =>
      let world := { world.record (.onClose session) with
        upper := callbacks.onClose (.connector connector) connIndex world.upper
        connectSession := Function.update world.connectSession connector none }
      (world.count fun s => { s with totalConnecting := s.totalConnecting - 1 }).modify session
        fun s => { s with connector := none }
  | none, none => world

/-- The part of `handle_exit` that takes the session out of the map and schedules its
destruction, unless the map has no entry for it. -/
def leaveMap (session : Nat) (world : World U) : World U :=
  let connIndex := (world.poolSession session).connIndex
  match world.getSession connIndex with
  | none => world
  | some _ =>
      ((world.removeSession connIndex).expiresFromNow session).post
        (.handleDestory session ⟨world.clock + 10, false⟩)

def handleExit (callbacks : Callbacks U) (session : Nat) (world : World U) : World U :=
  let world := world.use session
  if (world.poolSession session).isClosed then world
  else
    let world := (world.modify session fun s => { s with socketStatus := .closed }).count fun s =>
      { s with totalClosed := s.totalClosed + 1 }
    (world.tellClosed callbacks session).leaveMap session

def close (callbacks : Callbacks U) (session : Nat) (waitSeconds : Int) (world : World U) :
    World U :=
  if waitSeconds ≠ 0 then
    ((world.use session).expiresFromNow session).post
      (.handleExit session ⟨world.clock + waitSeconds, false⟩)
  else world.handleExit callbacks session

/-- `Session::Send`. -/
def sendSession (session : Nat) (length : Int) (world : World U) : World U :=
  let world := world.use session
  if (world.poolSession session).isClosed then world
  else
    (world.post (.handleWrite session length)).count fun s =>
      { s with
        totalMsgSendCount := s.totalMsgSendCount + 1
        totalDataSendWait := s.totalDataSendWait + length }

def receiveSp (session : Nat) (receive : Receive) (world : World U) : World U :=
  (world.use session).post (.handleReadSp session receive)

def start (session : Nat) (world : World U) : World U :=
  receiveSp session receiveHeader
    ((world.use session).modify session fun s => { s with readState := .expectHeader })

/-! ## Calls into the socket layer -/

def closeSocket (callbacks : Callbacks U) (connectID : Int) (world : World U) : World U :=
  match world.getSession connectID with
  | none => world
  | some session => world.close callbacks session 0

def startListen (acceptor : Nat) (memory : Bool) (world : World U) : World U :=
  if world.stopSocketFlag then world
  else
    match world.allocSession memory with
    | none => world
    | some (session, world) =>
        (world.post (.handleAccept acceptor session)).count fun s =>
          { s with totalListening := s.totalListening + 1 }

def asyncConnect (connector : Nat) (memory : Bool) (world : World U) : World U :=
  if world.stopSocketFlag then world
  else
    match world.allocSession memory with
    | none => { world with connectSession := Function.update world.connectSession connector none }
    | some (session, world) =>
        let world := { world with
          connectSession := Function.update world.connectSession connector (some session) }
        let world := world.modify session fun s => { s with connector := some connector }
        let world := world.count fun s => { s with totalConnecting := s.totalConnecting + 1 }
        (world.modify session fun s => { s with socketStatus := .connecting }).post
          (.handleConnect connector session)

/-- Perform one call. -/
def perform (callbacks : Callbacks U) (world : World U) : ApiCall → World U
  | .send connectID encode =>
      let found := world.getSession connectID
      match found, (encode world.stopSocketFlag found.isSome).sent with
      | some session, some length => world.sendSession session length
      | _, _ => world
  | .closeSocket connectID => world.closeSocket callbacks connectID
  | .asyncClose connectID waitSeconds =>
      match world.getSession connectID with
      | none => world
      | some session => world.close callbacks session waitSeconds
  | .startListen acceptor memory => world.startListen acceptor memory
  | .stopListen _ failed =>
      if failed then world
      else world.count fun s => { s with totalListening := s.totalListening - 1 }
  | .asyncConnect connector memory => world.asyncConnect connector memory
  | .disConnect connector =>
      match world.connectSession connector with
      | none => world
      | some session =>
          world.closeSocket callbacks (world.poolSession session).connIndex

/-- Perform the calls a callback makes, with the state it leaves the upper layer in. -/
def performAll (callbacks : Callbacks U) (world : World U) (result : U × List ApiCall) :
    World U :=
  result.2.foldl (perform callbacks) { world with upper := result.1 }

end World

end SunPush
