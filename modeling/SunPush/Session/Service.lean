import SunPush.Session.World
import SunPush.Library.Transition

/-!
# Handlers and the steps of the service

The completion handlers of `Acceptor`, `Connector` and `Session`, and the
transition system they form: a step completes one pending operation and runs its
handler to the end, performs one call of another thread, lets time pass, or is
one of the three stages of `StopSocketService`.

Boost.Asio is the environment.  Any pending operation may complete next, with or
without an error, a receive with any number of bytes up to the requested one,
and a wait once it is due or cancelled.
-/

namespace SunPush

open CInteger

/-- What Boost.Asio, Winsock and the memory pools answer during one handler. -/
structure Completion where
  /-- `error.value()`, zero for success. -/
  error : Int
  /-- The bytes a receive has placed in its buffer. -/
  bytes : List UInt8
  /-- Whether `WSAGetLastError()` is `WSAEWOULDBLOCK`. -/
  wouldBlock : Bool
  /-- Whether asking for the remote endpoint of an accepted socket fails.  `handle_accept` asks
  three times, in `GetRemoteIP` and `GetRemotePort` again, which throw if it fails; the three
  answers are assumed to be the same, so that neither of them throws. -/
  remoteError : Bool
  /-- Whether `AllocSession` succeeds. -/
  memory : Bool
  /-- Whether the upper layer's pool finds memory. -/
  upperMemory : Bool

/-- The operation succeeds; a receive has placed `bytes` in its buffer. -/
def Completion.success (bytes : List UInt8) : Completion where
  error := 0
  bytes := bytes
  wouldBlock := false
  remoteError := false
  memory := true
  upperMemory := true

/-- The operation fails with `error`. -/
def Completion.failure (error : Int) : Completion where
  error := error
  bytes := []
  wouldBlock := false
  remoteError := false
  memory := true
  upperMemory := true

/-- An upper layer that does nothing. -/
def Callbacks.silent : Callbacks Unit where
  onAccept _ _ _ _ := ((), [])
  onConnect _ _ _ _ := ((), [])
  onReadComplete _ _ _ _ _ := ((), [])
  onSend _ _ _ _ := ((), [])
  onClose _ _ _ := ()

namespace World

variable {U : Type} (callbacks : Callbacks U)

/-! ## The callbacks -/

/-- `OnAccept(m_connindex)`. -/
def onAccept (acceptor session : Nat) (memory : Bool) (world : World U) : World U :=
  let world := world.use session
  let connIndex := (world.poolSession session).connIndex
  (world.record (.onAccept session)).performAll callbacks
    (callbacks.onAccept acceptor connIndex memory world.upper)

/-- `OnConnect(new_session->m_connindex, error.value())`. -/
def onConnect (connector session : Nat) (errorCode : Int) (world : World U) : World U :=
  let world := world.use session
  let connIndex := (world.poolSession session).connIndex
  (world.record (.onConnect session errorCode)).performAll callbacks
    (callbacks.onConnect connector connIndex errorCode world.upper)

/-- `OnReadComplete` of the session's acceptor or connector, if it has one. -/
def onReadComplete (session : Nat) (msg : NetMsg) (length : Int) (world : World U) : World U :=
  let world := world.use session
  let connIndex := (world.poolSession session).connIndex
  match (world.poolSession session).owner with
  | none => world
  | some owner =>
      (world.record (.onReadComplete session (msg.message length))).performAll callbacks
        (callbacks.onReadComplete owner connIndex msg length world.upper)

/-- `OnSend` of the session's acceptor or connector, if it has one. -/
def onSend (session : Nat) (length : Int) (world : World U) : World U :=
  let world := world.use session
  let connIndex := (world.poolSession session).connIndex
  match (world.poolSession session).owner with
  | none => world
  | some owner =>
      (world.record (.onSend session length)).performAll callbacks
        (callbacks.onSend owner connIndex length world.upper)

/-! ## The handlers -/

/-- The last statements of `handle_accept`: accept the next client. -/
def acceptNext (acceptor : Nat) (memory : Bool) (world : World U) : World U :=
  match world.allocSession memory with
  | none => world
  | some (session, world) => world.post (.handleAccept acceptor session)

/-- A session whose socket is connected is marked so and entered into the map. -/
def openSession (session : Nat) (change : Session → Session) (world : World U) : World U :=
  let world := (world.use session).modify session change
  world.updateSession (world.poolSession session).connIndex session

/-- The part of `handle_accept` for a client whose remote endpoint can be read. -/
def acceptClient (acceptor session : Nat) (memory : Bool) (world : World U) : World U :=
  let world := world.openSession session fun s =>
    { s with socketStatus := .connected, acceptor := some acceptor }
  (world.onAccept callbacks acceptor session memory).start session

def handleAccept (acceptor session : Nat) (completion : Completion) (world : World U) : World U :=
  if completion.error ≠ 0 then world.destroySession session
  else
    let world := world.count fun s => { s with totalConneced := s.totalConneced + 1 }
    let world :=
      if completion.remoteError then world.handleExit callbacks session
      else world.acceptClient callbacks acceptor session completion.upperMemory
    world.acceptNext acceptor completion.memory

def handleConnect (connector session : Nat) (completion : Completion) (world : World U) :
    World U :=
  if completion.error ≠ 0 then
    if world.stopSocketFlag then world
    else
      let world := world.count fun s => { s with totalConnecting := s.totalConnecting - 1 }
      let world := (world.use session).modify session fun s => { s with socketStatus := .error }
      let world := world.destroySession session
      let world := { world with
        connectSession := Function.update world.connectSession connector none }
      world.onConnect callbacks connector session completion.error
  else
    let world := world.openSession session fun s => { s with socketStatus := .connected }
    (world.start session).onConnect callbacks connector session completion.error

/-- Report the message of a receive, if there is one. -/
def deliver (session : Nat) (message : Option (NetMsg × Int)) (world : World U) : World U :=
  match message with
  | none => world
  | some (msg, length) =>
      (world.count fun s => { s with totalMsgRecvCount := s.totalMsgRecvCount + 1 })
        |>.onReadComplete callbacks session msg length

/-- What `handle_read_sp` does to the world once it has decided on `outcome`. -/
def finishReadSp (session : Nat) (outcome : ReadOutcome) (world : World U) : World U :=
  let world := world.modify session fun s => { s with readState := outcome.state }
  let world := world.deliver callbacks session outcome.deliver
  let world :=
    match outcome.receive with
    | none => world
    | some receive => world.receiveSp session receive
  if outcome.exit then world.handleExit callbacks session else world

def handleReadSp (session : Nat) (receive : Receive) (completion : Completion)
    (world : World U) : World U :=
  let world := world.count fun s =>
    { s with totalDataRecv := s.totalDataRecv + receive.recvLength }
  if world.stopSocketFlag then world
  else
    let world := world.use session
    if (world.poolSession session).isClosed then world
    else
      world.finishReadSp callbacks session
        ((world.poolSession session).readState.handleReadSp
          (receive.msg.place receive.recvOffset completion.bytes) (toSizeT receive.recvLength)
          completion.wouldBlock)

def handleWrite (session : Nat) (length : Int) (completion : Completion) (world : World U) :
    World U :=
  let world := world.use session
  if (world.poolSession session).isClosed then world
  else
    (world.onSend callbacks session length).count fun s =>
      if completion.error = 0 then
        { s with
          totalDataSendWait := s.totalDataSendWait - length
          totalDataSend := s.totalDataSend + length }
      else { s with totalDataSendDiscard := s.totalDataSendDiscard + length }

def handleDestory (session : Nat) (world : World U) : World U :=
  (world.destroySession session).count fun s => { s with totalClosed := s.totalClosed - 1 }

/-- Call a handler. -/
def handle (completion : Completion) (world : World U) : Handler → World U
  | .handleAccept acceptor session => world.handleAccept callbacks acceptor session completion
  | .handleConnect connector session => world.handleConnect callbacks connector session completion
  | .handleReadSp session receive => world.handleReadSp callbacks session receive completion
  | .handleWrite session length => world.handleWrite callbacks session length completion
  | .handleExit session _ => world.handleExit callbacks session
  | .handleDestory session _ => world.handleDestory session

/-- The operation of a handler can complete as `completion` says. -/
def Completes (world : World U) (completion : Completion) : Handler → Prop
  | .handleReadSp _ receive =>
      (completion.error = 0 → 1 ≤ completion.bytes.length) ∧
        completion.bytes.length ≤ receive.recvLength.toNat
  | .handleExit _ wait => wait.cancelled = true ∨ wait.due ≤ world.clock
  | .handleDestory _ wait => wait.cancelled = true ∨ wait.due ≤ world.clock
  | _ => True

instance (world : World U) (completion : Completion) :
    DecidablePred (world.Completes completion)
  | .handleAccept _ _ => isTrue trivial
  | .handleConnect _ _ => isTrue trivial
  | .handleReadSp _ _ => inferInstanceAs (Decidable (_ ∧ _))
  | .handleWrite _ _ => isTrue trivial
  | .handleExit _ _ => inferInstanceAs (Decidable (_ ∨ _))
  | .handleDestory _ _ => inferInstanceAs (Decidable (_ ∨ _))

/-- `g_io_service.stop()` and `SessionManager::Release()`: no handler runs any more, and the pool
destructs its sessions. -/
def release (world : World U) : World U :=
  { world with
    poolSession := fun session => (world.poolSession session).destruct
    mapSession := ∅
    pending := [] }

end World

/-- What happens in one step. -/
inductive Label where
  /-- The pending operation at `index` completes and its handler runs. -/
  | complete (index : Nat) (completion : Completion)
  /-- A thread calls into the socket layer. -/
  | call (call : ApiCall)
  /-- Time passes. -/
  | tick (seconds : Nat)
  /-- `StopSocketService` sets the stop flag. -/
  | stop
  /-- `RemoveAllSession`. -/
  | removeAll
  /-- `StopSocketService` ends the service. -/
  | release

namespace World

variable {U : Type} (callbacks : Callbacks U)

def step (world : World U) : Label → Option (World U)
  | .complete index completion =>
      match world.pending[index]? with
      | none => none
      | some handler =>
          if world.Completes completion handler then
            some (handle callbacks completion
              { world with pending := world.pending.eraseIdx index } handler)
          else none
  | .call call => some (world.perform callbacks call)
  | .tick seconds => some { world with clock := world.clock + seconds }
  | .stop => some { world with stopSocketFlag := true }
  | .removeAll => some world.removeAllSession
  | .release => if world.stopSocketFlag then some world.release else none

/-- The socket layer before anything is called, under an upper layer in the state `upper`. -/
def initial (upper : U) : World U where
  stopSocketFlag := false
  currentConnexindex := 1
  poolSession _ := .raw
  mapSession := ∅
  pending := []
  log := []
  usedAfterDestroy := false
  connectSession _ := none
  clock := 0
  statistics := {}
  upper := upper

/-- The service under an upper layer that starts in one of the states `Upper` allows. -/
def service (Upper : U → Prop) : Transition.System (World U) Label where
  Initial world := ∃ upper, Upper upper ∧ world = initial upper
  step := step callbacks

end World

end SunPush
