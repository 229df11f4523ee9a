import SunPush.PushServer.UserIndexes
import SunPush.PushServer.WebConnection

/-!
# Kicking a user

`KickUser` answers a message of the wrong size.  It sets the status `eus_ERROR`,
announces the kick if `s_emServerType` is `PUSH_SERVER`, and calls `AsyncClose`.
Nothing assigns the server type, so no kick is announced; and no handler looks
at the status, so until the delayed close is due the messages of the kicked user
are handled like those of any other.
-/

namespace SunPush

open CInteger

namespace World

variable {U : Type}

/-- The step completes a receive of the session, whose handler passes the message to
`OnReadComplete`. -/
def Reports (world : World U) (label : Label) (session : Nat) (msg : NetMsg) (length : Int) :
    Prop :=
  ∃ index completion receive, label = .complete index completion ∧
    world.pending[index]? = some (.handleReadSp session receive) ∧
      world.Completes completion (.handleReadSp session receive) ∧
      world.stopSocketFlag = false ∧ (world.poolSession session).isClosed = false ∧
        ((world.poolSession session).readState.handleReadSp
          (receive.msg.place receive.recvOffset completion.bytes) (toSizeT receive.recvLength)
          completion.wouldBlock).deliver = some (msg, length)

/-- A handler that passes a message on expects a header next. -/
theorem outcome_of_deliver {state : ReadState} {msg : NetMsg} {bytesTransferred : Nat}
    {wouldBlock : Bool} {message : NetMsg × Int}
    (delivers : (state.handleReadSp msg bytesTransferred wouldBlock).deliver = some message) :
    state.handleReadSp msg bytesTransferred wouldBlock =
      { state := .expectHeader, deliver := some message, receive := some receiveHeader
        exit := false } := by
  simp only [ReadState.handleReadSp] at delivers ⊢
  split at delivers
  · contradiction
  · next told =>
      rw [if_neg told]
      split at delivers
      · split at delivers
        · contradiction
        · split at delivers <;> contradiction
      · next body =>
          rw [if_neg body]
          split at delivers
          · next last =>
              rw [if_pos last]
              simp only at delivers
              rw [delivers]
          · split at delivers
            · contradiction
            · split at delivers <;> contradiction

/-- Where `OnClose` changes nothing, the step that reports a message leaves the upper layer as
`OnReadComplete` does. -/
theorem upper_of_reports {callbacks : Callbacks U} {world next : World U} {label : Label}
    {session : Nat} {msg : NetMsg} {length : Int} {owner : Owner}
    (closes : ∀ owner connIndex upper, callbacks.onClose owner connIndex upper = upper)
    (reports : world.Reports label session msg length)
    (owned : (world.poolSession session).owner = some owner)
    (steps : world.step callbacks label = some next) :
    next.upper = (callbacks.onReadComplete owner (world.poolSession session).connIndex msg length
      world.upper).1 := by
  rcases reports with ⟨index, completion, receive, rfl, at_index, _, running, opened, delivers⟩
  rw [next_of_complete at_index steps]
  let result := callbacks.onReadComplete owner (world.poolSession session).connIndex msg length
    world.upper
  have kept : ∀ owner connIndex upper, upper = result.1 →
      callbacks.onClose owner connIndex upper = result.1 := by
    intro owner connIndex upper same
    exact (closes owner connIndex upper).trans same
  have reported : ∀ current : World U, (current.poolSession session).owner = some owner →
      (current.poolSession session).connIndex = (world.poolSession session).connIndex →
        current.upper = world.upper →
          (current.onReadComplete callbacks session msg length).upper = result.1 := by
    intro current currentOwned connIndex upper
    simp only [World.onReadComplete, World.use, currentOwned]
    apply @performAll_upper U callbacks (fun upper => upper = result.1) kept
    simp only [connIndex, upper, result]
  have finished : ∀ (current : World U) (outcome : ReadOutcome),
      current.poolSession = world.poolSession → current.upper = world.upper →
        outcome.deliver = some (msg, length) →
          (current.finishReadSp callbacks session outcome).upper = result.1 := by
    intro current outcome pool upper delivered
    have told := reported
      ((current.modify session fun s => { s with readState := outcome.state }).count fun s =>
        { s with totalMsgRecvCount := s.totalMsgRecvCount + 1 })
    simp only [World.count, World.modify, Function.update_self, pool] at told
    have told := told owned trivial upper
    simp only [finishReadSp, deliver, delivered, World.count, World.modify, pool]
    cases outcome.receive <;> cases outcome.exit
    · exact told
    · exact handleExit_upper kept session told
    · exact told
    · exact handleExit_upper kept session told
  simp only [handle, handleReadSp, World.count, running, Bool.false_eq_true, if_false, World.use,
    opened]
  exact finished _ _ rfl rfl delivers

/-- The session is open, and a header is being received on it. -/
structure Listens (world : World U) (session : Nat) : Prop where
  running : world.stopSocketFlag = false
  opened : (world.poolSession session).isClosed = false
  expects : (world.poolSession session).readState = .expectHeader
  receives : .handleReadSp session receiveHeader ∈ world.pending

theorem dataLength_encode {length : Nat} (fits : length ≤ maxMsgSize) :
    toUInt16 (getPoolMessage.place 0 (LittleEndian.encode 4 length)).dataLength = length := by
  simp only [maxMsgSize] at fits
  have header := getPoolMessage.bufMsg.read_write_self 0 (LittleEndian.encode 4 length)
  rw [LittleEndian.length_encode] at header
  rw [NetMsg.dataLength, NetMsg.place, header, LittleEndian.decode_encode, toUInt16_natCast]
  omega

/-- A listening session can receive any message that fits: once its header is received, its body is
outstanding. -/
theorem Listens.receive {world : World U} {session : Nat} (listens : world.Listens session)
    (callbacks : Callbacks U) {message : List UInt8} (nonempty : 1 ≤ message.length)
    (fits : message.length ≤ maxMsgSize) :
    ∃ first later second msg, world.step callbacks first = some later ∧
      later.upper = world.upper ∧
      later.poolSession session =
        { world.poolSession session with readState := ⟨message.length, 0⟩ } ∧
      later.Reports second session msg message.length ∧
      ∀ i : Nat, i < message.length → msg.bufMsg i = message.getD i 0 := by
  rcases List.getElem?_of_mem listens.receives with ⟨index, at_index⟩
  generalize bytes_eq : LittleEndian.encode 4 message.length = bytes
  generalize header_eq : getPoolMessage.place 0 bytes = header
  have length : bytes.length = 4 := by rw [← bytes_eq, LittleEndian.length_encode]
  have declared : toUInt16 header.dataLength = message.length := by
    rw [← header_eq, ← bytes_eq]
    exact dataLength_encode fits
  have completes : world.Completes (.success bytes) (.handleReadSp session receiveHeader) :=
    ⟨fun _ => by change 1 ≤ bytes.length; omega, by change bytes.length ≤ 4; omega⟩
  have announced := @ReadState.handleReadSp_bodyHeader header false (by omega) (by omega)
  rw [declared] at announced
  have handled : ∃ later : World U, world.step callbacks (.complete index (.success bytes)) =
      some later ∧ later.stopSocketFlag = false ∧ later.upper = world.upper ∧
        later.poolSession =
          Function.update world.poolSession session
            { world.poolSession session with readState := ⟨message.length, 0⟩ } ∧
          later.pending = world.pending.eraseIdx index ++
            [.handleReadSp session ⟨header, 0, message.length⟩] := by
    have requested : toSizeT receiveHeader.recvLength = packetHeaderLength := by decide
    have placed : receiveHeader.msg.place receiveHeader.recvOffset
        (Completion.success bytes).bytes = header := header_eq
    have unblocked : (Completion.success bytes).wouldBlock = false := rfl
    simp only [step, at_index, if_pos completes, handle, handleReadSp, World.count,
      listens.running, Bool.false_eq_true, if_false, World.use, listens.opened, listens.expects,
      requested, placed, unblocked, announced]
    exact ⟨_, rfl, rfl, rfl, rfl, rfl⟩
  rcases handled with ⟨later, steps, running, upper, pool, pending⟩
  have here : later.poolSession session =
      { world.poolSession session with readState := ⟨message.length, 0⟩ } := by
    rw [pool, Function.update_self]
  have delivered := @ReadState.handleReadSp_body (header.place 0 message) message.length false
    nonempty fits
  have told : toSizeT (message.length : Int) = message.length := by
    simp only [maxMsgSize] at fits
    rw [toSizeT_of_nonneg (by omega) (by omega), Int.toNat_natCast]
  refine ⟨_, later, .complete (world.pending.eraseIdx index).length (.success message),
    { header.place 0 message with msgSize := message.length }, steps, upper, here, ?_, ?_⟩
  · refine ⟨_, _, ⟨header, 0, message.length⟩, rfl, ?_, ⟨fun _ => nonempty, le_refl _⟩, running,
      ?_, ?_⟩
    · rw [pending]
      exact List.getElem?_concat_length
    · rw [here]
      exact listens.opened
    · rw [here, told]
      exact congrArg ReadOutcome.deliver delivered
  · intro i inside
    have stored := @Memory.write_inside header.bufMsg 0 message i inside
    rw [Int.zero_add] at stored
    rw [List.getD_eq_getElem _ _ inside, ← stored]
    rfl

/-- Asking for a delayed close changes no session. -/
theorem performAll_asyncClose (callbacks : Callbacks U) (world : World U) (upper : U)
    (connectID : Int) {waitSeconds : Int} (delayed : waitSeconds ≠ 0) :
    (world.performAll callbacks (upper, [.asyncClose connectID waitSeconds])).stopSocketFlag =
        world.stopSocketFlag ∧
      (world.performAll callbacks (upper, [.asyncClose connectID waitSeconds])).poolSession =
        world.poolSession := by
  simp only [performAll, List.foldl_cons, List.foldl_nil, perform, close, if_pos delayed]
  split
  · exact ⟨rfl, rfl⟩
  · exact ⟨rfl, rfl⟩

/-- A message that is answered by a delayed close alone changes no session. -/
theorem onReadComplete_asyncClose {callbacks : Callbacks U} {world : World U} {session : Nat}
    {msg : NetMsg} {length : Int} {owner : Owner} {upper : U} {connectID waitSeconds : Int}
    (owned : (world.poolSession session).owner = some owner) (delayed : waitSeconds ≠ 0)
    (answers : callbacks.onReadComplete owner (world.poolSession session).connIndex msg length
      world.upper = (upper, [.asyncClose connectID waitSeconds])) :
    (world.onReadComplete callbacks session msg length).stopSocketFlag = world.stopSocketFlag ∧
      (world.onReadComplete callbacks session msg length).poolSession = world.poolSession := by
  simp only [onReadComplete, World.use, owned, answers]
  exact performAll_asyncClose callbacks _ upper connectID delayed

theorem Reports.enabled {world : World U} {label : Label} {session : Nat} {msg : NetMsg}
    {length : Int} (reports : world.Reports label session msg length) (callbacks : Callbacks U) :
    ∃ next, world.step callbacks label = some next := by
  rcases reports with ⟨index, completion, receive, rfl, at_index, completes, _⟩
  simp only [step, at_index, if_pos completes]
  exact ⟨_, rfl⟩

/-- The session then listens on. -/
theorem Reports.listens {callbacks : Callbacks U} {world next : World U} {label : Label}
    {session : Nat} {msg : NetMsg} {length : Int} {owner : Owner} {upper : U}
    {connectID waitSeconds : Int} (reports : world.Reports label session msg length)
    (owned : (world.poolSession session).owner = some owner) (delayed : waitSeconds ≠ 0)
    (answers : callbacks.onReadComplete owner (world.poolSession session).connIndex msg length
      world.upper = (upper, [.asyncClose connectID waitSeconds]))
    (steps : world.step callbacks label = some next) :
    next.Listens session ∧
      next.poolSession session =
        { world.poolSession session with readState := .expectHeader } := by
  rcases reports with ⟨index, completion, receive, rfl, at_index, _, running, opened, delivers⟩
  have told : ∀ current : World U, current.stopSocketFlag = false →
      current.poolSession = world.poolSession → current.upper = world.upper →
        (current.finishReadSp callbacks session
          { state := .expectHeader, deliver := some (msg, length), receive := some receiveHeader
            exit := false }).Listens session ∧
          (current.finishReadSp callbacks session
            { state := .expectHeader, deliver := some (msg, length), receive := some receiveHeader
              exit := false }).poolSession session =
            { world.poolSession session with readState := .expectHeader } := by
    intro current current_running pool current_upper
    let reread := (current.modify session fun s => { s with readState := .expectHeader }).count
      fun s => { s with totalMsgRecvCount := s.totalMsgRecvCount + 1 }
    have fields : reread.poolSession session =
        { world.poolSession session with readState := .expectHeader } := by
      change Function.update current.poolSession session _ session = _
      rw [Function.update_self, pool]
    have asked := @onReadComplete_asyncClose U callbacks reread session msg length owner upper
      connectID waitSeconds (by rw [fields]; exact owned) delayed
      (by rw [fields, ← answers, ← current_upper]; rfl)
    have kept := (congrFun asked.2 session).trans fields
    refine ⟨⟨asked.1.trans current_running, ?_, ?_, ?_⟩, kept⟩
    · exact (congrArg Session.isClosed kept).trans opened
    · exact congrArg Session.readState kept
    · exact List.mem_append_right _ List.mem_cons_self
  rw [next_of_complete at_index steps]
  simp only [handle, handleReadSp, World.count, running, Bool.false_eq_true, if_false, World.use,
    opened, outcome_of_deliver delivers]
  exact told _ rfl rfl rfl

end World

/-- The call sends something. -/
def ApiCall.Sends : ApiCall → Prop
  | .send _ _ => True
  | _ => False

namespace Server

/-- A `C2S_USER_AUTH_SYN` or `C2S_TEST_ORDER_SYN` whose size is not that of its structure. -/
def WronglySized (msg : Memory) (length : Int) : Prop :=
  msg 0 = csLogon ∧
    (msg 1 = 1 ∧ UInt16.ofNat (toUInt16 length) ≠ 46 ∨
      msg 1 = 51 ∧ UInt16.ofNat (toUInt16 length) ≠ 194)

/-- The calls the callback makes that is told the message. -/
def answers (world : World Server) (session : Nat) (msg : NetMsg) (length : Int) :
    List ApiCall :=
  match (world.poolSession session).owner with
  | none => []
  | some owner =>
      (callbacks.onReadComplete owner (world.poolSession session).connIndex msg length
        world.upper).2

/-- A kick is announced and final: between `world` and `next` the user of the session is told of
it, its status becomes `eus_ERROR` and a delayed close is requested; afterwards no message of the
session makes a handler send anything. -/
structure Kicks (world next : World Server) (session user : Nat) (msg : NetMsg) (length : Int) :
    Prop where
  announced : ∃ server : Server,
    server.send (world.poolSession session).connIndex (kickUserCmd server.stack) 4 ∈
      answers world session msg length
  status : (next.upper.info user).userStatus = .error
  scheduled : ∃ waitSeconds : Int, 0 < waitSeconds ∧
    .asyncClose (world.poolSession session).connIndex waitSeconds ∈
      answers world session msg length
  final : ∀ labels later label msg length, service.run next labels = some later →
    later.Reports label session msg length →
      ∀ call ∈ answers later session msg length, ¬call.Sends

/-- What happens instead. -/
structure Lapses (world next : World Server) (session user : Nat) (msg : NetMsg) (length : Int) :
    Prop where
  status : (next.upper.info user).userStatus = .error
  unannounced : answers world session msg length =
    [.asyncClose (world.poolSession session).connIndex 10]
  authenticates : ∀ labels later label msg length, service.run next labels = some later →
    later.Reports label session msg length → (later.poolSession session).acceptor.isSome →
      msg.bufMsg 0 = csLogon → msg.bufMsg 1 = 1 → UInt16.ofNat (toUInt16 length) = 46 →
        answers later session msg length =
          [later.upper.send (later.poolSession session).connIndex
            (userAuthAck later.upper.stack) 3]
  forwards : ∀ labels later label msg length, service.run next labels = some later →
    later.Reports label session msg length → (later.poolSession session).acceptor.isSome →
      msg.bufMsg 0 = csLogon → msg.bufMsg 1 = 51 → UInt16.ofNat (toUInt16 length) = 194 →
        answers later session msg length =
          [later.upper.send later.upper.webServerConID
            (testOrderSyn later.upper.stack (later.poolSession session).connIndex msg.bufMsg) 198]
  continues : ∃ labels later label msg length, service.run next labels = some later ∧
    later.Reports label session msg length ∧ ∃ call ∈ answers later session msg length, call.Sends

/-! ## The server type and the records -/

/-- What holds of the server between callbacks. -/
structure Settled (server : Server) : Prop where
  serverType : server.serverType = .null
  constructed : ∀ connectID user, server.users.findUserByConnectID connectID = some user →
    user < server.users.constructed
  connectID : ∀ connectID user, server.users.findUserByConnectID connectID = some user →
    (server.info user).connectID = connectID

namespace Settled

variable {server next : Server}

theorem modify (settled : server.Settled) (user : Nat) (change : UserInfomation → UserInfomation)
    (users : next.users = server.users.modify user change)
    (keeps : ∀ info, (change info).connectID = info.connectID)
    (serverType : next.serverType = server.serverType) : next.Settled where
  serverType := serverType.trans settled.serverType
  constructed := by
    rw [users]
    exact settled.constructed
  connectID := by
    intro connectID other found
    rw [users] at found
    have own := settled.connectID connectID other found
    rw [info, users, server.users.connectID_modify user other change keeps]
    exact own

theorem changeStatus (settled : server.Settled) (user : Nat) (status : UserStatus) :
    (server.changeStatus user status).Settled :=
  settled.modify user (fun info => { info with userStatus := status }) rfl (fun _ => rfl) rfl

theorem enter (settled : server.Settled) {connectID : Int}
    (users : next.users = (server.users.entered connectID).updateCounts)
    (serverType : next.serverType = server.serverType) : next.Settled where
  serverType := serverType.trans settled.serverType
  constructed := by
    intro key user found
    rw [users] at found ⊢
    change (server.users.entered connectID).findUserByConnectID key = some user at found
    rw [UserInfoManager.find_entered] at found
    change user < server.users.constructed + 1
    split at found
    · rw [Option.some.injEq] at found
      omega
    · exact (settled.constructed key user found).trans (Nat.lt_succ_self _)
  connectID := by
    intro key user found
    rw [users] at found
    change (server.users.entered connectID).findUserByConnectID key = some user at found
    rw [UserInfoManager.find_entered] at found
    rw [info, users]
    change (Function.update server.users.poolPlayers server.users.constructed _ user).connectID =
      key
    split at found
    · next same =>
        rw [Option.some.injEq] at found
        subst found
        rw [Function.update_self, same]
    · have old := settled.constructed key user found
      rw [Function.update_of_ne (Nat.ne_of_lt old)]
      exact settled.connectID key user found

theorem onAccept (settled : server.Settled) (connIndex : Int) (memory : Bool) :
    (server.onAccept connIndex memory).1.Settled := by
  cases found : server.users.findUserByConnectID connIndex with
  | some user =>
      have entered := UserInfoManager.enterUser_of_find found memory
      have added : server.users.addUser connIndex 0 memory =
          (some user, server.users.updateCounts) := by
        simp [UserInfoManager.addUser, entered]
      rw [Server.onAccept, added]
      have counted : Settled { server with users := server.users.updateCounts } :=
        ⟨settled.serverType, settled.constructed, settled.connectID⟩
      exact counted.changeStatus _ .connected
  | none =>
      cases memory with
      | true =>
          have entered := UserInfoManager.enterUser_of_absent found
          have added : server.users.addUser connIndex 0 true =
              (some server.users.constructed, (server.users.entered connIndex).updateCounts) := by
            simp [UserInfoManager.addUser, entered]
          rw [Server.onAccept, added]
          have counted : Settled { server with
              users := (server.users.entered connIndex).updateCounts } := settled.enter rfl rfl
          exact counted.changeStatus _ .connected
      | false =>
          rw [UserInfoManager.findUserByConnectID] at found
          have refused : server.users.addUser connIndex 0 false = (none, server.users) := by
            simp [UserInfoManager.addUser, UserInfoManager.enterUser, found]
          rw [Server.onAccept, refused]
          exact ⟨settled.serverType, settled.constructed, settled.connectID⟩

/-- Under the server type that is never assigned, a kick makes a single call. -/
theorem kickUser_eq (settled : server.Settled) (user : Nat) :
    server.kickUser user =
      (server.changeStatus user .error, [.asyncClose (server.info user).connectID 10]) := by
  have same : ((server.changeStatus user .error).info user).connectID =
      (server.info user).connectID :=
    server.users.connectID_modify user user (fun info => { info with userStatus := .error })
      fun _ => rfl
  have null : (server.changeStatus user .error).serverType = .null := settled.serverType
  simp only [Server.kickUser, null, same, List.nil_append]

theorem parsePacketCS (settled : server.Settled) (user : Nat) (msg : Memory) (size : UInt16) :
    (server.parsePacketCS user msg size).1.Settled := by
  have kicked : (server.kickUser user).1.Settled := settled.changeStatus user .error
  simp only [Server.parsePacketCS, handlerC2SUserAuthSyn, handlerC2STestOrderSyn]
  split
  · split
    · exact kicked
    · exact settled.modify user
        (fun info => { info with
          accountName := (strncpyS (server.info user).accountName 20 (fun i => msg (2 + i)) 32).1 })
        rfl (fun _ => rfl) rfl
  · split
    · split
      · exact kicked
      · exact settled
    · exact settled

theorem onReadComplete (settled : server.Settled) (owner : Owner) (connIndex : Int) (msg : NetMsg)
    (length : Int) : (callbacks.onReadComplete owner connIndex msg length server).1.Settled := by
  cases owner with
  | acceptor acceptor =>
      simp only [callbacks, onClientReadComplete]
      split
      · exact settled
      · split
        · exact settled
        · exact settled.parsePacketCS _ msg.bufMsg _
  | connector connector =>
      simp only [callbacks, onWebReadComplete, Server.parsePacketWS, handlerW2SWsConnectedCmd,
        handlerW2SAuthResultAck, handlerW2SNewOrderBrdCmd]
      repeat' split
      all_goals exact settled

end Settled

theorem Initial.settled {server : Server} (initial : server.Initial) : server.Settled where
  serverType := initial.serverType
  constructed := by
    intro connectID user found
    rw [initial.users] at found
    contradiction
  connectID := by
    intro connectID user found
    rw [initial.users] at found
    contradiction

theorem settled_of_reachable {world : World Server} (reached : service.Reachable world) :
    world.upper.Settled := by
  apply reached.invariant
  · rintro state ⟨server, initial, rfl⟩
    exact initial.settled
  · intro state label next settled _ steps
    refine @World.step_keeps Server callbacks Settled (fun _ _ _ => id) state next label
      ?_ ?_ ?_ ?_ steps settled
    · intro _ _ _ _ _ _ _ _ acceptor connIndex memory server serverSettled
      exact serverSettled.onAccept connIndex memory
    · intro _ _ _ _ _ _ _ connector connIndex errorCode server serverSettled
      exact ⟨serverSettled.serverType, serverSettled.constructed, serverSettled.connectID⟩
    · intro owner connIndex msg length server serverSettled
      exact serverSettled.onReadComplete owner connIndex msg length
    · exact fun _ _ _ _ => id

/-! ## What the handlers answer -/

section Answers

variable {server : Server} {connIndex : Int} {user : Nat} {msg : Memory} {length : Int}

/-- A message of the wrong size is answered by a kick. -/
theorem onClientReadComplete_wronglySized
    (found : server.users.findUserByConnectID connIndex = some user)
    (wrong : WronglySized msg length) :
    server.onClientReadComplete connIndex msg length = server.kickUser user := by
  rcases wrong with ⟨category, ⟨protocol, size⟩ | ⟨protocol, size⟩⟩
  · simp [onClientReadComplete, parsePacketCS, handlerC2SUserAuthSyn, found, category, protocol,
      size]
  · simp [onClientReadComplete, parsePacketCS, handlerC2STestOrderSyn, found, category, protocol,
      size]

/-- An authentication request of any user is granted. -/
theorem onClientReadComplete_userAuthSyn (settled : server.Settled)
    (found : server.users.findUserByConnectID connIndex = some user)
    (category : msg 0 = csLogon) (protocol : msg 1 = 1)
    (size : UInt16.ofNat (toUInt16 length) = 46) :
    (server.onClientReadComplete connIndex msg length).2 =
      [server.send connIndex (userAuthAck server.stack) 3] := by
  have own := settled.connectID connIndex user found
  have renamed : ∀ name, ((server.users.modify user fun info =>
      { info with accountName := name }).poolPlayers user).connectID = connIndex := by
    intro name
    exact (server.users.connectID_modify user user (fun info => { info with accountName := name })
      fun _ => rfl).trans own
  simp [onClientReadComplete, parsePacketCS, handlerC2SUserAuthSyn, found, category, protocol,
    size, sendToClient, info, renamed]
  rfl

/-- An order of any user is forwarded. -/
theorem onClientReadComplete_testOrderSyn (settled : server.Settled)
    (found : server.users.findUserByConnectID connIndex = some user)
    (category : msg 0 = csLogon) (protocol : msg 1 = 51)
    (size : UInt16.ofNat (toUInt16 length) = 194) :
    (server.onClientReadComplete connIndex msg length).2 =
      [server.send server.webServerConID (testOrderSyn server.stack connIndex msg) 198] := by
  have own := settled.connectID connIndex user found
  simp [onClientReadComplete, parsePacketCS, handlerC2STestOrderSyn, found, category, protocol,
    size, own]

end Answers

section Kick

variable {world next : World Server} {label : Label} {session user : Nat} {msg : NetMsg}
  {length : Int}

theorem owner_of_isSome (accepted : (world.poolSession session).acceptor.isSome) :
    ∃ acceptor, (world.poolSession session).owner = some (.acceptor acceptor) := by
  rcases Option.isSome_iff_exists.mp accepted with ⟨acceptor, owned⟩
  exact ⟨acceptor, by simp only [Session.owner, owned]⟩

theorem answers_of_owner {acceptor : Nat}
    (owned : (world.poolSession session).owner = some (.acceptor acceptor)) :
    answers world session msg length =
      (world.upper.onClientReadComplete (world.poolSession session).connIndex msg.bufMsg
        length).2 := by
  simp only [answers, owned]
  rfl

/-- In every reachable state an open client has a user. -/
theorem user_of_reachable (reached : service.Reachable world)
    (accepted : (world.poolSession session).acceptor.isSome) :
    ∃ user, world.upper.users.findUserByConnectID (world.poolSession session).connIndex =
      some user := by
  rcases owner_of_isSome accepted with ⟨acceptor, owned⟩
  have client := (World.sound_of_reachable reached).client_of_owner owned
  exact UserInfoManager.has_iff.mp (known_of_reachable reached session _ client)

/-- In every reachable state a well-sized request of an open client is granted. -/
theorem answers_userAuthSyn (reached : service.Reachable world)
    (accepted : (world.poolSession session).acceptor.isSome) (category : msg.bufMsg 0 = csLogon)
    (protocol : msg.bufMsg 1 = 1) (size : UInt16.ofNat (toUInt16 length) = 46) :
    answers world session msg length =
      [world.upper.send (world.poolSession session).connIndex
        (userAuthAck world.upper.stack) 3] := by
  rcases owner_of_isSome accepted with ⟨_, owned⟩
  rcases user_of_reachable reached accepted with ⟨_, found⟩
  rw [answers_of_owner owned]
  exact onClientReadComplete_userAuthSyn (settled_of_reachable reached) found category protocol size

/-- In every reachable state a well-sized order of an open client is forwarded. -/
theorem answers_testOrderSyn (reached : service.Reachable world)
    (accepted : (world.poolSession session).acceptor.isSome) (category : msg.bufMsg 0 = csLogon)
    (protocol : msg.bufMsg 1 = 51) (size : UInt16.ofNat (toUInt16 length) = 194) :
    answers world session msg length =
      [world.upper.send world.upper.webServerConID
        (testOrderSyn world.upper.stack (world.poolSession session).connIndex msg.bufMsg) 198] := by
  rcases owner_of_isSome accepted with ⟨_, owned⟩
  rcases user_of_reachable reached accepted with ⟨_, found⟩
  rw [answers_of_owner owned]
  exact onClientReadComplete_testOrderSyn (settled_of_reachable reached) found category protocol
    size

/-- A message of the wrong size changes the status and requests the delayed close, no more. -/
theorem onReadComplete_wronglySized (reached : service.Reachable world) {acceptor : Nat}
    (found : world.upper.users.findUserByConnectID (world.poolSession session).connIndex =
      some user)
    (wrong : WronglySized msg.bufMsg length) :
    callbacks.onReadComplete (.acceptor acceptor) (world.poolSession session).connIndex msg length
        world.upper =
      (world.upper.changeStatus user .error,
        [.asyncClose (world.poolSession session).connIndex 10]) := by
  have settled := settled_of_reachable reached
  refine (onClientReadComplete_wronglySized found wrong).trans ?_
  rw [settled.kickUser_eq, settled.connectID _ user found]

/-- No kick is announced or final, whatever the state and the message: the status changes and the
close is requested, but nothing is sent, and the next request or order of the kicked user is
answered or forwarded like any other. -/
theorem not_kicks_and_lapses (reached : service.Reachable world)
    (reports : world.Reports label session msg length)
    (accepted : (world.poolSession session).acceptor.isSome)
    (found : world.upper.users.findUserByConnectID (world.poolSession session).connIndex =
      some user)
    (wrong : WronglySized msg.bufMsg length) (steps : service.step world label = some next) :
    ¬Kicks world next session user msg length ∧ Lapses world next session user msg length := by
  rcases owner_of_isSome accepted with ⟨acceptor, owned⟩
  have kicked := @onReadComplete_wronglySized _ _ _ _ _ reached acceptor found wrong
  have unannounced : answers world session msg length =
      [.asyncClose (world.poolSession session).connIndex 10] :=
    (answers_of_owner owned).trans (congrArg Prod.snd kicked)
  have next_reached : service.Reachable next := .step reached trivial steps
  constructor
  · intro kicks
    rcases kicks.announced with ⟨server, announced⟩
    rw [unannounced, List.mem_singleton] at announced
    contradiction
  · constructor
    case status =>
      have upper := World.upper_of_reports (fun _ _ _ => rfl) reports owned steps
      rw [upper, kicked]
      change (Function.update world.upper.users.poolPlayers user _ user).userStatus = .error
      rw [Function.update_self]
    case unannounced => exact unannounced
    case authenticates =>
      intro labels later label msg length runs _
      exact answers_userAuthSyn (next_reached.of_run runs)
    case forwards =>
      intro labels later label msg length runs _
      exact answers_testOrderSyn (next_reached.of_run runs)
    case continues =>
      let request : List UInt8 := 10 :: 1 :: List.replicate 44 0
      rcases reports.listens owned (by decide) kicked steps with ⟨listens, fields⟩
      rcases @World.Listens.receive _ _ _ listens callbacks request (by decide) (by decide) with
        ⟨first, later, second, msg, receives, _, later_fields, later_reports, bytes⟩
      have later_accepted : (later.poolSession session).acceptor.isSome := by
        rw [later_fields, fields]
        exact accepted
      refine ⟨[first], later, second, msg, request.length, ?_, later_reports, ?_⟩
      · exact Option.bind_eq_some_iff.mpr ⟨later, receives, rfl⟩
      · rw [answers_userAuthSyn (.step next_reached trivial receives) later_accepted
          (bytes 0 (by decide)) (bytes 1 (by decide)) (by decide)]
        exact ⟨_, List.mem_cons_self, trivial⟩

end Kick

/-- A client is accepted, and a request of three bytes is received from it. -/
theorem kick_after_accept :
    ∃ world next label msg, service.Reachable world ∧ service.step world label = some next ∧
      world.Reports label 2 msg 3 ∧ (world.poolSession 2).acceptor.isSome ∧
      world.upper.users.findUserByConnectID (world.poolSession 2).connIndex = some 0 ∧
      WronglySized msg.bufMsg 3 := by
  have accepts : ∃ world, service.run (World.initial atStart)
      [.call (.startListen 0 true), .complete 0 (.success [])] = some world ∧
        world.Listens 2 ∧ (world.poolSession 2).acceptor = some 0 ∧
        world.upper.users.findUserByConnectID (world.poolSession 2).connIndex = some 0 :=
    ⟨_, rfl, ⟨rfl, rfl, rfl, List.mem_cons_of_mem _ List.mem_cons_self⟩, rfl, rfl⟩
  rcases accepts with ⟨world, runs, listens, acceptor, found⟩
  rcases @World.Listens.receive _ _ _ listens callbacks [10, 1, 0] (by decide) (by decide) with
    ⟨first, later, second, msg, receives, upper, fields, reports, bytes⟩
  rcases reports.enabled callbacks with ⟨next, steps⟩
  refine ⟨later, next, second, msg, ?_, steps, reports, ?_, ?_, ?_⟩
  · exact .step (Transition.System.reachable_of_run initial_atStart runs) trivial receives
  · rw [fields]
    exact Option.isSome_iff_exists.mpr ⟨0, acceptor⟩
  · rw [fields, upper]
    exact found
  · exact ⟨bytes 0 (by decide), .inl ⟨bytes 1 (by decide), by decide⟩⟩

theorem not_kicks_and_lapses_after_accept :
    ∃ world next msg, ¬Kicks world next 2 0 msg 3 ∧ Lapses world next 2 0 msg 3 := by
  rcases kick_after_accept with
    ⟨world, next, label, msg, reached, steps, reports, accepted, found, wrong⟩
  exact ⟨world, next, msg, not_kicks_and_lapses reached reports accepted found wrong steps⟩

/-- The three bytes are answered by the delayed close alone. -/
theorem not_kicks_after_accept :
    ∃ world next label msg, service.Reachable world ∧ service.step world label = some next ∧
      world.Reports label 2 msg 3 ∧
      world.upper.users.findUserByConnectID (world.poolSession 2).connIndex = some 0 ∧
      WronglySized msg.bufMsg 3 ∧ ¬Kicks world next 2 0 msg 3 := by
  rcases kick_after_accept with
    ⟨world, next, label, msg, reached, steps, reports, accepted, found, wrong⟩
  refine ⟨world, next, label, msg, reached, steps, reports, found, wrong, ?_⟩
  intro kicks
  rcases kicks.announced with ⟨server, announced⟩
  rcases owner_of_isSome accepted with ⟨acceptor, owned⟩
  rw [answers_of_owner owned, onClientReadComplete_wronglySized found wrong,
    (settled_of_reachable reached).kickUser_eq, List.mem_singleton] at announced
  contradiction

end Server

end SunPush
