import SunPush.Library.Precedence
import SunPush.Peers.OrderAccounting
import SunPush.PushServer.Tracking

/-!
# Orders and authentication

`Handler_C2S_USER_AUTH_SYN` grants every request, but changes no status, and
`Handler_C2S_TEST_ORDER_SYN` looks at none.  So an order is forwarded whether its
connection has asked for authentication before or not: that orders come from
authenticated users only is up to the clients.
-/

namespace SunPush

open CInteger LittleEndian Precedence

namespace OrderService

/-! ## Requests and answers -/

/-- A `MSG_C2S_USER_AUTH_SYN` of the size its handler demands. -/
def isAuthSyn (message : List UInt8) : Bool :=
  message.length = 46 ∧ message.getD 0 0 = csLogon ∧ message.getD 1 0 = 1

/-- The frame of a `MSG_S2C_USER_AUTH_ACK` whose `byResult` is 1. -/
def isAuthAck (frame : List UInt8) : Bool :=
  frame.getD 4 0 = csLogon ∧ frame.getD 5 0 = 2 ∧ frame.getD 6 0 = 1

/-- The entry of the log grants the connection's request. -/
def Grants (connectID : Int) (entry : Int × List UInt8) : Prop :=
  entry.1 = connectID ∧ isAuthAck entry.2

/-- The entry of the log is an order forwarded for the connection. -/
def Forwards (connectID : Int) (entry : Int × List UInt8) : Prop :=
  isForwarded connectID entry.2

/-- Every order that was forwarded has been forwarded for a connection whose request had been
granted. -/
def Authenticated (state : State) : Prop :=
  Preceded Grants Forwards state.sent

/-- Whether a message to the connection is sent. -/
def Reaches (state : State) (connectID : Int) : Prop :=
  (state.lines connectID).any Line.isOpen

/-- An order that will be forwarded, of a connection that has a user while the web server is
connected, comes from a connection that a request was received from. -/
def AsksFirst (state : State) : Label → Prop
  | .serverReceivesRequest connectID _ _ =>
      ∀ message rest, Channels.take connectID state.fromClients = some (message, rest) →
        isOrder message → state.server.users.Has connectID →
          Reaches state state.server.webServerConID →
            ∃ request, (connectID, request) ∈ state.received ∧ isAuthSyn request
  | _ => True

/-! ## What a step adds to the log -/

/-- A frame that neither grants a request nor is a forwarded order. -/
structure Plain (frame : List UInt8) : Prop where
  no_grant : isAuthAck frame = false
  no_order : ∀ connectID, isForwarded connectID frame = false

/-- The log has grown by plain frames. -/
def AddsPlain (before after : List (Int × List UInt8)) : Prop :=
  ∃ entries, after = before ++ entries ∧ ∀ entry ∈ entries, Plain entry.2

theorem addsPlain_self (log : List (Int × List UInt8)) : AddsPlain log log :=
  ⟨[], (List.append_nil log).symm, fun _ => nofun⟩

/-- What becomes of a message that is passed to `OnReadComplete`. -/
inductive Answer (state next : State) (connectID : Int) (message : List UInt8) : Prop where
  /-- The order is forwarded. -/
  | forwarded (order : isOrder message) (known : state.server.users.Has connectID)
      (reaches : Reaches state state.server.webServerConID) (frame : List UInt8)
      (sent : next.sent = state.sent ++ [(state.server.webServerConID, frame)])
      (names : ∀ other, isForwarded other frame ↔ other = connectID)
      (no_grant : isAuthAck frame = false)
  /-- The request is granted. -/
  | granted (request : isAuthSyn message) (known : state.server.users.Has connectID)
      (frame : List UInt8)
      (sent : next.sent = state.sent ++ [(connectID, frame)])
      (grant : isAuthAck frame) (no_order : ∀ other, isForwarded other frame = false)
  /-- It is no order that can be forwarded and no request that can be granted. -/
  | other (sent : AddsPlain state.sent next.sent)
      (unforwarded : isOrder message → state.server.users.Has connectID →
        ¬Reaches state state.server.webServerConID)
      (ungranted : isAuthSyn message → ¬state.server.users.Has connectID)

section Transmit

variable (state : State) (server : Server) (connectID : Int) {message : Memory} {length : UInt16}

theorem transmit_keeps (call : ApiCall) :
    (state.transmit call).server = state.server ∧
      (state.transmit call).received = state.received := by
  cases call with
  | send connectID encode =>
      simp only [State.transmit]
      split <;> exact ⟨rfl, rfl⟩
  | _ => exact ⟨rfl, rfl⟩

theorem finish_keeps (result : Server × List ApiCall) :
    (state.finish result).server = result.1 ∧ (state.finish result).received = state.received := by
  rcases result with ⟨server, calls⟩
  simp only [State.finish]
  have start : ({ state with server } : State).server = server ∧
      ({ state with server } : State).received = state.received := ⟨rfl, rfl⟩
  generalize ({ state with server } : State) = current at start ⊢
  induction calls generalizing current with
  | nil => exact start
  | cons call rest ih =>
      have kept := transmit_keeps current call
      exact ih _ ⟨kept.1.trans start.1, kept.2.trans start.2⟩

theorem sent_transmit (fits : length.toNat ≤ maxMsgSize) :
    (state.transmit (server.send connectID message length)).sent =
      if (state.lines connectID).any Line.isOpen then
        state.sent ++ [(connectID, frameOf message length fun i => server.stack i)]
      else state.sent := by
  rw [transmit_send state server connectID message fits]
  split <;> rfl

theorem addsPlain_transmit (fits : length.toNat ≤ maxMsgSize)
    (plain : ∀ beyond, Plain (frameOf message length beyond)) :
    AddsPlain state.sent (state.transmit (server.send connectID message length)).sent := by
  rw [sent_transmit state server connectID fits]
  split
  · refine ⟨_, rfl, ?_⟩
    intro entry entry_mem
    rw [List.mem_singleton] at entry_mem
    rw [entry_mem]
    exact plain _
  · exact addsPlain_self state.sent

end Transmit

theorem isAuthSyn_iff (rest : Memory) {message : List UInt8} (delivered : Delivered message) :
    isAuthSyn message = true ↔ buffer rest message 0 = csLogon ∧ buffer rest message 1 = 1 ∧
      UInt16.ofNat (toUInt16 message.length) = 46 := by
  rw [buffer_iff rest delivered (by decide), isAuthSyn, decide_eq_true_eq]
  rfl

section Request

variable {state current : State} {connectID : Int} {user : Nat}

theorem addsPlain_kickUser (user : Nat) :
    AddsPlain current.sent (current.finish (current.server.kickUser user)).sent := by
  have announced := addsPlain_transmit
    { current with server := current.server.changeStatus user .error }
    (current.server.changeStatus user .error)
    ((current.server.changeStatus user .error).info user).connectID
    (show (4 : UInt16).toNat ≤ maxMsgSize by decide)
    (fun _ => ⟨rfl, fun _ => rfl⟩ : ∀ beyond, Plain (frameOf (kickUserCmd current.server.stack) 4
      beyond))
  -- the delayed close sends nothing
  rw [Server.kickUser, State.finish, List.foldl_append]
  change AddsPlain current.sent (List.foldl State.transmit
    { current with server := current.server.changeStatus user .error } _).sent
  cases kind : (current.server.changeStatus user .error).serverType with
  | push => exact announced
  | null => exact addsPlain_self current.sent
  | agent => exact addsPlain_self current.sent
  | data => exact addsPlain_self current.sent

/-- A well-sized request of a client is granted. -/
theorem sent_userAuthSyn (opened : Reaches current connectID)
    (own : (current.server.info user).connectID = connectID) (msg : Memory) :
    ∃ frame, (current.finish (current.server.handlerC2SUserAuthSyn user msg 46)).sent =
        current.sent ++ [(connectID, frame)] ∧
      isAuthAck frame ∧ ∀ other, isForwarded other frame = false := by
  let name := strncpyS (current.server.info user).accountName 20 (fun i => msg (2 + i)) 32
  let server := { current.server with
    users := current.server.users.modify user fun info => { info with accountName := name.1 }
    invalidParameter := current.server.invalidParameter || name.2 }
  have same := @sameKeys_modify current.server.users user
    (fun info => { info with accountName := name.1 }) fun _ => rfl
  have kept : (server.info user).connectID = connectID := (same.connectID user).trans own
  refine ⟨frameOf (userAuthAck current.server.stack) 3 fun i => current.server.stack i, ?_, rfl,
    fun _ => rfl⟩
  change (State.transmit { current with server := server }
    (server.sendToClient user (userAuthAck server.stack) 3)).sent = _
  rw [Server.sendToClient, kept]
  refine (sent_transmit _ server connectID (by decide)).trans ?_
  exact if_pos opened

/-- A well-sized order of a client is forwarded if the web server is connected. -/
theorem sent_testOrderSyn (own : (current.server.info user).connectID = connectID)
    (in_range : toLong connectID = connectID) (msg : Memory) :
    ∃ frame, (current.finish (current.server.handlerC2STestOrderSyn user msg 194)).sent =
        (if (current.lines current.server.webServerConID).any Line.isOpen then
          current.sent ++ [(current.server.webServerConID, frame)]
        else current.sent) ∧
      (∀ other, isForwarded other frame ↔ other = connectID) ∧ isAuthAck frame = false := by
  refine ⟨frameOf (testOrderSyn current.server.stack (current.server.info user).connectID msg) 198
    fun i => current.server.stack i, ?_, ?_, rfl⟩
  · exact sent_transmit current current.server current.server.webServerConID (by decide)
  · intro other
    rw [isForwarded_order, iUserGID_testOrderSyn, own, in_range, eq_comm]

/-- The state in which the callback runs: apart from the channels, the received messages and the
stack it is the state before the step. -/
structure Calls (state current : State) : Prop where
  sent : current.sent = state.sent
  lines : current.lines = state.lines
  users : current.server.users = state.server.users
  webServerConID : current.server.webServerConID = state.server.webServerConID

section Answer

variable {message : List UInt8}

theorem Calls.addsPlain_self (calls : Calls state current) :
    AddsPlain state.sent current.sent := by
  rw [calls.sent]
  exact OrderService.addsPlain_self state.sent

theorem Calls.addsPlain_kickUser (calls : Calls state current) (user : Nat) :
    AddsPlain state.sent (current.finish (current.server.kickUser user)).sent := by
  rw [← calls.sent]
  exact OrderService.addsPlain_kickUser user

/-- A request is granted, or its sender kicked. -/
theorem answer_userAuthSyn (calls : Calls state current) (opened : Reaches state connectID)
    (known : state.server.users.Has connectID)
    (own : (current.server.info user).connectID = connectID)
    (delivered : Delivered message) (rest : Memory)
    (category : buffer rest message 0 = csLogon) (login : buffer rest message 1 = 1) :
    Answer state (current.finish (current.server.handlerC2SUserAuthSyn user (buffer rest message)
      (UInt16.ofNat (toUInt16 message.length)))) connectID message := by
  have request_iff := isAuthSyn_iff rest delivered
  by_cases size : UInt16.ofNat (toUInt16 message.length) = 46
  · have reaches : Reaches current connectID := by
      rw [Reaches, calls.lines]
      exact opened
    rcases sent_userAuthSyn reaches own (buffer rest message) with ⟨frame, added, grant, plain⟩
    rw [calls.sent] at added
    rw [size]
    exact .granted (request_iff.mpr ⟨category, login, size⟩) known frame added grant plain
  · rw [Server.handlerC2SUserAuthSyn, if_pos size]
    refine .other (calls.addsPlain_kickUser user) ?_ ?_
    · intro order
      have protocol := ((isOrder_iff rest delivered).mp order).2.1
      rw [login] at protocol
      contradiction
    · intro request
      exact absurd (request_iff.mp request).2.2 size

/-- An order is forwarded if the web server is connected, or its sender kicked. -/
theorem answer_testOrderSyn (calls : Calls state current)
    (known : state.server.users.Has connectID)
    (own : (current.server.info user).connectID = connectID)
    (in_range : toLong connectID = connectID) (delivered : Delivered message) (rest : Memory)
    (category : buffer rest message 0 = csLogon) (order : buffer rest message 1 = 51) :
    Answer state (current.finish (current.server.handlerC2STestOrderSyn user (buffer rest message)
      (UInt16.ofNat (toUInt16 message.length)))) connectID message := by
  have order_iff := isOrder_iff rest delivered
  have no_request : isAuthSyn message ≠ true := by
    intro request
    have protocol := ((isAuthSyn_iff rest delivered).mp request).2.1
    rw [order] at protocol
    contradiction
  by_cases size : UInt16.ofNat (toUInt16 message.length) = 194
  · rcases sent_testOrderSyn own in_range (buffer rest message) with
      ⟨frame, added, names, no_grant⟩
    rw [calls.sent, calls.lines, calls.webServerConID] at added
    rw [size]
    by_cases reaches : Reaches state state.server.webServerConID
    · rw [Reaches] at reaches
      rw [if_pos reaches] at added
      exact .forwarded (order_iff.mpr ⟨category, order, size⟩) known reaches frame added names
        no_grant
    · rw [Reaches] at reaches
      rw [if_neg reaches] at added
      refine .other ?_ (fun _ _ => reaches) fun request => absurd request no_request
      rw [added]
      exact addsPlain_self state.sent
  · rw [Server.handlerC2STestOrderSyn, if_pos size]
    refine .other (calls.addsPlain_kickUser user) ?_ fun request => absurd request no_request
    intro placed
    exact absurd (order_iff.mp placed).2.2 size

/-- The callback answers the message of an open client. -/
theorem answer_onClientReadComplete (calls : Calls state current)
    (opened : Reaches state connectID)
    (keys : ∀ user, state.server.users.findUserByConnectID connectID = some user →
      (state.server.users.poolPlayers user).connectID = connectID ∧
        toLong connectID = connectID)
    (delivered : Delivered message) (rest : Memory) :
    Answer state (current.finish (current.server.onClientReadComplete connectID
      (buffer rest message) message.length)) connectID message := by
  have order_iff := isOrder_iff rest delivered
  have request_iff := isAuthSyn_iff rest delivered
  rw [Server.onClientReadComplete]
  by_cases category : buffer rest message 0 = csLogon
  · rw [if_neg (not_not_intro category)]
    cases found : current.server.users.findUserByConnectID connectID with
    | none =>
        have unknown : ¬state.server.users.Has connectID := by
          rw [UserInfoManager.has_iff, ← calls.users]
          rintro ⟨user, known⟩
          rw [found] at known
          contradiction
        exact .other calls.addsPlain_self (fun _ known => absurd known unknown) fun _ => unknown
    | some user =>
        rw [calls.users] at found
        have known : state.server.users.Has connectID := UserInfoManager.has_iff.mpr ⟨user, found⟩
        have own : (current.server.info user).connectID = connectID := by
          rw [Server.info, calls.users]
          exact (keys user found).1
        simp only [Server.parsePacketCS, category, true_and]
        by_cases login : buffer rest message 1 = 1
        · rw [if_pos login]
          exact answer_userAuthSyn calls opened known own delivered rest category login
        · rw [if_neg login]
          by_cases order : buffer rest message 1 = 51
          · rw [if_pos order]
            exact answer_testOrderSyn calls known own (keys user found).2 delivered rest category
              order
          · rw [if_neg order]
            refine .other calls.addsPlain_self ?_ ?_
            · intro placed
              exact absurd (order_iff.mp placed).2.1 order
            · intro request
              exact absurd (request_iff.mp request).2.1 login
  · rw [if_pos category]
    refine .other calls.addsPlain_self ?_ ?_
    · intro order
      exact absurd (order_iff.mp order).1 category
    · intro request
      exact absurd (request_iff.mp request).1 category

end Answer

end Request

/-! ## What a step does -/

/-- A step that passes no message of a client to the push server: plain frames are sent, and only a
connection that was not in use before gets a user. -/
structure Idle (state next : State) : Prop where
  sent : AddsPlain state.sent next.sent
  received : next.received = state.received
  known : ∀ connectID, state.server.users.Has connectID → next.server.users.Has connectID
  entered : ∀ connectID, next.server.users.Has connectID →
    state.server.users.Has connectID ∨ state.lines connectID = none

/-- A step that passes a message of a client to the push server. -/
structure Handled (state next : State) (connectID : Int) (message : List UInt8) : Prop where
  received : next.received = state.received ++ [(connectID, message)]
  known : ∀ other, next.server.users.Has other ↔ state.server.users.Has other
  answer : Answer state next connectID message

theorem idle_same {state next : State} (sent : next.sent = state.sent)
    (received : next.received = state.received)
    (users : next.server.users = state.server.users) : Idle state next where
  sent := by
    rw [sent]
    exact addsPlain_self state.sent
  received := received
  known connectID known := by rwa [users]
  entered connectID known := by
    rw [users] at known
    exact .inl known

theorem idle_onAccept {state current : State} (sent : current.sent = state.sent)
    (received : current.received = state.received)
    (users : current.server.users = state.server.users) {connectID : Int}
    (unused : state.lines connectID = none) (memory : Bool) :
    Idle state (current.finish (current.server.onAccept connectID memory)) := by
  have kept := finish_keeps current (current.server.onAccept connectID memory)
  have plain : ∀ server : Server, AddsPlain current.sent
      (State.transmit { current with server } (server.send connectID (svrReadyCmd server.stack)
        42)).sent := by
    intro server
    exact addsPlain_transmit { current with server } server connectID (by decide)
      fun _ => ⟨rfl, fun _ => rfl⟩
  have outcome : AddsPlain current.sent
      (current.finish (current.server.onAccept connectID memory)).sent ∧
        (current.server.onAccept connectID memory).1.users.Has =
          (current.server.users.addUser connectID 0 memory).2.Has := by
    rw [Server.onAccept]
    split
    · next found =>
        rw [found]
        exact ⟨addsPlain_self current.sent, rfl⟩
    · next found =>
        rw [found]
        exact ⟨plain _, rfl⟩
  have has : ∀ other, (current.finish (current.server.onAccept connectID memory)).server.users.Has
      other ↔ (state.server.users.addUser connectID 0 memory).2.Has other := by
    intro other
    rw [kept.1, outcome.2, users]
  rcases state.server.users.addUser_connection connectID memory with ⟨_, added⟩ | refused
  · constructor
    case sent => exact sent ▸ outcome.1
    case received => exact kept.2.trans received
    case known =>
      intro other known
      exact (has other).mpr ((added other).mpr (.inr known))
    case entered =>
      intro other known
      rcases (added other).mp ((has other).mp known) with rfl | known
      · exact .inr unused
      · exact .inl known
  · rw [refused] at has
    constructor
    case sent => exact sent ▸ outcome.1
    case received => exact kept.2.trans received
    case known => exact fun other => (has other).mpr
    case entered => exact fun other known => .inl ((has other).mp known)

theorem idle_onWebReadComplete {state current : State} (sent : current.sent = state.sent)
    (received : current.received = state.received)
    (users : current.server.users = state.server.users) (connIndex : Int) (msg : Memory) :
    Idle state (current.finish (current.server.onWebReadComplete connIndex msg)) := by
  have kept := finish_keeps current (current.server.onWebReadComplete connIndex msg)
  have outcome : AddsPlain current.sent
      (current.finish (current.server.onWebReadComplete connIndex msg)).sent ∧
        (current.server.onWebReadComplete connIndex msg).1 = current.server := by
    simp only [Server.onWebReadComplete, Server.parsePacketWS, Server.handlerW2SWsConnectedCmd,
      Server.handlerW2SAuthResultAck, Server.handlerW2SNewOrderBrdCmd]
    split
    · exact ⟨addsPlain_self current.sent, rfl⟩
    · split
      · exact ⟨addsPlain_transmit current current.server connIndex (by decide)
          fun _ => ⟨rfl, fun _ => rfl⟩, rfl⟩
      · split
        · exact ⟨addsPlain_self current.sent, rfl⟩
        · split
          · exact ⟨addsPlain_transmit current current.server _ (by decide)
              fun _ => ⟨rfl, fun _ => rfl⟩, rfl⟩
          · exact ⟨addsPlain_self current.sent, rfl⟩
  constructor
  case sent => exact sent ▸ outcome.1
  case received => exact kept.2.trans received
  case known =>
    intro other known
    rwa [kept.1, outcome.2, users]
  case entered =>
    intro other known
    rw [kept.1, outcome.2, users] at known
    exact .inl known

theorem handled_onClientReadComplete {state current : State}
    (accounted : Accounted state fun _ => 0) (calls : Calls state current) {connectID : Int}
    {message : List UInt8} (received : current.received = state.received ++ [(connectID, message)])
    (opened : state.isOpen connectID .client) (delivered : Delivered message) (rest : Memory) :
    Handled state (current.finish (current.server.onClientReadComplete connectID
      (buffer rest message) message.length)) connectID message := by
  have kept := finish_keeps current (current.server.onClientReadComplete connectID
    (buffer rest message) message.length)
  constructor
  case received => exact kept.2.trans received
  case known =>
    intro other
    rw [kept.1, Server.has_onClientReadComplete, calls.users]
  case answer =>
    apply answer_onClientReadComplete calls
    · rw [State.isOpen, decide_eq_true_eq] at opened
      rw [Reaches, opened]
      rfl
    · intro user found
      have keys := accounted.users connectID user found
      exact ⟨keys.2.1, keys.2.2.1⟩
    · exact delivered

/-- The server handles the bytes that a client has sent, or passes over them. -/
theorem idle_or_handled_request {state next : State} {size : WebServer.IntSize} {connectID : Int}
    {rest stack : Memory} (accounted : Accounted state fun _ => 0)
    (enabled : step size state (.serverReceivesRequest connectID rest stack) = some next) :
    Idle state next ∧ AsksFirst state (.serverReceivesRequest connectID rest stack) ∨
      ∃ other message, Handled state next other message ∧
        (AsksFirst state (.serverReceivesRequest connectID rest stack) ↔
          (isOrder message → state.server.users.Has other →
            Reaches state state.server.webServerConID →
              ∃ request, (other, request) ∈ state.received ∧ isAuthSyn request)) := by
  simp only [OrderService.step, Option.ite_none_right_eq_some, Option.map_eq_some_iff]
    at enabled
  rcases enabled with ⟨opened, ⟨message, fromClients⟩, taken, rfl⟩
  by_cases delivered : Delivered message
  · simp only [if_pos delivered]
    right
    refine ⟨connectID, message, ?_, ?_⟩
    · apply handled_onClientReadComplete accounted
      · exact ⟨rfl, rfl, rfl, rfl⟩
      · rfl
      · exact opened
      · exact delivered
    · simp only [AsksFirst, taken, Option.some.injEq, Prod.mk.injEq, and_imp]
      constructor
      · intro asks
        exact asks message fromClients rfl rfl
      · rintro asks _ _ rfl rfl
        exact asks
  · simp only [if_neg delivered]
    refine .inl ⟨idle_same rfl rfl rfl, ?_⟩
    intro other left taken_other order
    rw [taken, Option.some.injEq, Prod.mk.injEq] at taken_other
    rw [← taken_other.1, isOrder, decide_eq_true_eq] at order
    rw [Delivered, order.1] at delivered
    exact absurd (by decide) delivered

/-- Every step is one or the other, and only the handling of an order can fail the condition. -/
theorem idle_or_handled {state next : State} {size : WebServer.IntSize} {label : Label}
    (accounted : Accounted state fun _ => 0) (enabled : step size state label = some next) :
    Idle state next ∧ AsksFirst state label ∨
      ∃ connectID message, Handled state next connectID message ∧
        (AsksFirst state label ↔ (isOrder message → state.server.users.Has connectID →
          Reaches state state.server.webServerConID →
            ∃ request, (connectID, request) ∈ state.received ∧ isAuthSyn request)) := by
  cases label with
  | accept connectID memory stack =>
      simp only [OrderService.step, Option.ite_none_right_eq_some, Option.some.injEq] at enabled
      rcases enabled with ⟨⟨unused, _⟩, rfl⟩
      refine .inl ⟨?_, trivial⟩
      apply idle_onAccept
      · rfl
      · rfl
      · rfl
      · exact unused
  | connect connectID succeeds =>
      simp only [OrderService.step, Option.ite_none_right_eq_some, Option.some.injEq] at enabled
      rcases enabled with ⟨_, rfl⟩
      exact .inl ⟨idle_same rfl rfl rfl, trivial⟩
  | close connectID =>
      simp only [OrderService.step, Option.map_eq_some_iff] at enabled
      rcases enabled with ⟨line, _, rfl⟩
      exact .inl ⟨idle_same rfl rfl rfl, trivial⟩
  | clientSends connectID message =>
      simp only [OrderService.step, Option.ite_none_right_eq_some, Option.some.injEq] at enabled
      rcases enabled with ⟨_, rfl⟩
      exact .inl ⟨idle_same rfl rfl rfl, trivial⟩
  | clientReceives connectID =>
      simp only [OrderService.step, Option.ite_none_right_eq_some, Option.map_eq_some_iff]
        at enabled
      rcases enabled with ⟨_, _, _, rfl⟩
      exact .inl ⟨idle_same rfl rfl rfl, trivial⟩
  | serverReceivesRequest connectID rest stack =>
      exact idle_or_handled_request accounted enabled
  | serverReceivesAnswer connectID rest stack =>
      simp only [OrderService.step, Option.ite_none_right_eq_some, Option.map_eq_some_iff]
        at enabled
      rcases enabled with ⟨_, ⟨frame, fromWebServer⟩, _, rfl⟩
      by_cases delivered : Delivered (frame.drop 4)
      · simp only [if_pos delivered]
        refine .inl ⟨?_, trivial⟩
        apply idle_onWebReadComplete <;> rfl
      · simp only [if_neg delivered]
        exact .inl ⟨idle_same rfl rfl rfl, trivial⟩
  | webServerAccepts connectID =>
      cases script : state.script with
      | listening =>
          simp only [OrderService.step, script, Option.ite_none_right_eq_some,
            Option.some.injEq] at enabled
          rcases enabled with ⟨_, rfl⟩
          exact .inl ⟨idle_same rfl rfl rfl, trivial⟩
      | serving connectID socket => simp [OrderService.step, script] at enabled
      | ended => simp [OrderService.step, script] at enabled
  | webServerReceives =>
      cases script : state.script with
      | listening => simp [OrderService.step, script] at enabled
      | serving connectID socket =>
          simp only [OrderService.step, script, Option.map_eq_some_iff] at enabled
          rcases enabled with ⟨⟨frame, fromServer⟩, _, rfl⟩
          refine .inl ⟨?_, trivial⟩
          simp only
          split <;> exact idle_same rfl rfl rfl
      | ended => simp [OrderService.step, script] at enabled
  | webServerEnds =>
      rcases Option.some.inj enabled with rfl
      exact .inl ⟨idle_same rfl rfl rfl, trivial⟩

/-! ## Requests and grants go together -/

/-- A connection with a user has been granted a request exactly when one was received from it. -/
structure Granted (state : State) : Prop where
  asked : ∀ entry ∈ state.sent, isAuthAck entry.2 → state.server.users.Has entry.1 ∧
    ∃ request, (entry.1, request) ∈ state.received ∧ isAuthSyn request
  granted : ∀ entry ∈ state.received, isAuthSyn entry.2 → state.server.users.Has entry.1 →
    ∃ grant ∈ state.sent, Grants entry.1 grant

theorem not_isAuthSyn_of_isOrder {message : List UInt8} (order : isOrder message) :
    isAuthSyn message ≠ true := by
  intro request
  rw [isOrder, decide_eq_true_eq] at order
  rw [isAuthSyn, decide_eq_true_eq, order.1] at request
  exact absurd request.1 (by decide)

namespace Granted

variable {state next : State}

/-- A connection with a user that was granted a request has asked, and the other way round. -/
theorem iff (granted : Granted state) {connectID : Int}
    (known : state.server.users.Has connectID) :
    (∃ earlier ∈ state.sent, Grants connectID earlier) ↔
      ∃ request, (connectID, request) ∈ state.received ∧ isAuthSyn request := by
  constructor
  · rintro ⟨earlier, earlier_mem, rfl, grant⟩
    exact (granted.asked earlier earlier_mem grant).2
  · rintro ⟨request, request_mem, asks⟩
    exact granted.granted (connectID, request) request_mem asks known

theorem idle (granted : Granted state) (accounted : Accounted state fun _ => 0)
    (idle : Idle state next) : Granted next := by
  rcases idle.sent with ⟨entries, sent, plain⟩
  constructor
  case asked =>
    intro entry entry_mem grant
    rw [sent, List.mem_append] at entry_mem
    rcases entry_mem with old | new
    · have asked := granted.asked entry old grant
      rw [idle.received]
      exact ⟨idle.known _ asked.1, asked.2⟩
    · rw [(plain entry new).no_grant] at grant
      contradiction
  case granted =>
    intro entry entry_mem request known
    rw [idle.received] at entry_mem
    rcases idle.entered entry.1 known with known | unused
    · rcases granted.granted entry entry_mem request known with ⟨grant, grant_mem, grants⟩
      refine ⟨grant, ?_, grants⟩
      rw [sent]
      exact List.mem_append_left _ grant_mem
    · -- nothing was received from a connection that was not in use
      have client := accounted.received entry entry_mem
      rw [IsPeer, unused] at client
      contradiction

theorem handled (granted : Granted state) {connectID : Int} {message : List UInt8}
    (handled : Handled state next connectID message) : Granted next := by
  have old_asked : ∀ entry ∈ state.sent, isAuthAck entry.2 →
      next.server.users.Has entry.1 ∧
        ∃ request, (entry.1, request) ∈ next.received ∧ isAuthSyn request := by
    intro entry entry_mem grant
    rcases granted.asked entry entry_mem grant with ⟨known, request, request_mem, asks⟩
    refine ⟨(handled.known _).mpr known, request, ?_, asks⟩
    rw [handled.received]
    exact List.mem_append_left _ request_mem
  have old_granted : ∀ entry ∈ state.received, isAuthSyn entry.2 →
      next.server.users.Has entry.1 → ∃ grant ∈ state.sent, Grants entry.1 grant := by
    intro entry entry_mem request known
    exact granted.granted entry entry_mem request ((handled.known _).mp known)
  have finish : ∀ entries, next.sent = state.sent ++ entries →
      (∀ entry ∈ entries, isAuthAck entry.2 → next.server.users.Has entry.1 ∧
        ∃ request, (entry.1, request) ∈ next.received ∧ isAuthSyn request) →
      (isAuthSyn message → state.server.users.Has connectID →
        ∃ grant ∈ next.sent, Grants connectID grant) → Granted next := by
    intro entries sent new_asked new_granted
    constructor
    case asked =>
      intro entry entry_mem grant
      rw [sent, List.mem_append] at entry_mem
      rcases entry_mem with old | new
      · exact old_asked entry old grant
      · exact new_asked entry new grant
    case granted =>
      intro entry entry_mem request known
      rw [handled.received, List.mem_append, List.mem_singleton] at entry_mem
      rcases entry_mem with old | rfl
      · rcases old_granted entry old request known with ⟨grant, grant_mem, grants⟩
        refine ⟨grant, ?_, grants⟩
        rw [sent]
        exact List.mem_append_left _ grant_mem
      · exact new_granted request ((handled.known _).mp known)
  cases handled.answer with
  | forwarded order known reaches frame sent names no_grant =>
      apply finish _ sent
      · intro entry entry_mem grant
        rw [List.mem_singleton] at entry_mem
        rw [entry_mem, no_grant] at grant
        contradiction
      · intro request
        exact absurd request (not_isAuthSyn_of_isOrder order)
  | granted request known frame sent grant no_order =>
      apply finish _ sent
      · intro entry entry_mem _
        rw [List.mem_singleton] at entry_mem
        rw [entry_mem, handled.received]
        exact ⟨(handled.known _).mpr known, message,
          List.mem_append_right _ List.mem_cons_self, request⟩
      · intro _ _
        refine ⟨(connectID, frame), ?_, rfl, grant⟩
        rw [sent]
        exact List.mem_append_right _ List.mem_cons_self
  | other sent unforwarded ungranted =>
      rcases sent with ⟨entries, sent, plain⟩
      apply finish _ sent
      · intro entry entry_mem grant
        rw [(plain entry entry_mem).no_grant] at grant
        contradiction
      · intro request known
        exact absurd known (ungranted request)

end Granted

/-- What the log is extended by, and what holds after it. -/
theorem authenticated_of_addsPlain {state next : State} (added : AddsPlain state.sent next.sent)
    (authenticated : Authenticated state) : Authenticated next := by
  rcases added with ⟨entries, sent, plain⟩
  rw [Authenticated, sent]
  apply Preceded.append authenticated
  intro entry entry_mem connectID forwards
  rw [Forwards, (plain entry entry_mem).no_order connectID] at forwards
  contradiction

/-- The handling of a message keeps the property exactly when the message is no order that will be
forwarded, or the connection has asked. -/
theorem authenticated_handled_iff {state next : State} {connectID : Int} {message : List UInt8}
    (granted : Granted state) (authenticated : Authenticated state)
    (handled : Handled state next connectID message) :
    Authenticated next ↔ (isOrder message → state.server.users.Has connectID →
      Reaches state state.server.webServerConID →
        ∃ request, (connectID, request) ∈ state.received ∧ isAuthSyn request) := by
  cases handled.answer with
  | forwarded order known reaches frame sent names no_grant =>
      have single : (∀ key, Forwards key (state.server.webServerConID, frame) →
          ∃ earlier ∈ state.sent, Grants key earlier) ↔
            ∃ earlier ∈ state.sent, Grants connectID earlier := by
        constructor
        · intro caused
          exact caused connectID ((names connectID).mpr rfl)
        · intro granted key forwards
          rwa [(names key).mp forwards]
      rw [Authenticated, sent, preceded_concat, single, granted.iff known]
      constructor
      · intro both _ _ _
        exact both.2
      · intro asks
        exact ⟨authenticated, asks order known reaches⟩
  | granted request known frame sent grant no_order =>
      apply iff_of_true
      · rw [Authenticated, sent]
        apply Preceded.append authenticated
        intro entry entry_mem key forwards
        rw [List.mem_singleton] at entry_mem
        rw [Forwards, entry_mem, no_order key] at forwards
        contradiction
      · intro order
        exact absurd request (not_isAuthSyn_of_isOrder order)
  | other sent unforwarded ungranted =>
      apply iff_of_true
      · exact authenticated_of_addsPlain sent authenticated
      · intro order known reaches
        exact absurd reaches (unforwarded order known)

/-- In a run from the start, every order that is forwarded comes from a connection whose request was
granted before exactly when no order that will be forwarded is received from a connection before a
request is. -/
theorem authenticated_iff {size : WebServer.IntSize} {start final : State} {labels : List Label}
    (initial : Initial start) (runs : (system size).run start labels = some final) :
    Authenticated final ↔ (system size).RunMeets AsksFirst start labels := by
  refine @Transition.System.runMeets_iff_of_exact _ _ (system size) AsksFirst
    (fun state => Accounted state (fun _ => 0) ∧ Granted state) Authenticated
    ?_ ?_ ?_ start final labels ?_ ?_ runs
  · intro state label next both enabled
    refine ⟨both.1.step enabled, ?_⟩
    rcases idle_or_handled both.1 enabled with ⟨idle, _⟩ | ⟨connectID, message, handled, _⟩
    · exact both.2.idle both.1 idle
    · exact both.2.handled handled
  · intro state label next both enabled authenticated
    have grown : ∃ entries, next.sent = state.sent ++ entries := by
      rcases idle_or_handled both.1 enabled with ⟨idle, _⟩ | ⟨connectID, message, handled, _⟩
      · rcases idle.sent with ⟨entries, sent, _⟩
        exact ⟨entries, sent⟩
      · cases handled.answer with
        | forwarded order known reaches frame sent names no_grant => exact ⟨_, sent⟩
        | granted request known frame sent grant no_order => exact ⟨_, sent⟩
        | other added unforwarded ungranted =>
            rcases added with ⟨entries, sent, _⟩
            exact ⟨entries, sent⟩
    rcases grown with ⟨entries, sent⟩
    rw [Authenticated, sent] at authenticated
    exact authenticated.of_append
  · intro state label next both authenticated enabled
    rcases idle_or_handled both.1 enabled with
      ⟨idle, meets⟩ | ⟨connectID, message, handled, meets_iff⟩
    · exact iff_of_true (authenticated_of_addsPlain idle.sent authenticated) meets
    · rw [meets_iff]
      exact authenticated_handled_iff both.2 authenticated handled
  · refine ⟨accounted_initial initial, ?_, ?_⟩
    · intro entry entry_mem
      rw [initial.sent] at entry_mem
      contradiction
    · intro entry entry_mem
      rw [initial.received] at entry_mem
      contradiction
  · rw [Authenticated, initial.sent]
    exact preceded_nil

/-- Client 1 asks, then places an order. -/
def askedOrder : List Label :=
  [.accept 1 true .zero, .connect 2 true, .clientSends 1 ([10, 1] ++ List.replicate 44 0),
    .serverReceivesRequest 1 .zero .zero, .clientSends 1 ([10, 51] ++ List.replicate 192 0),
    .serverReceivesRequest 1 .zero .zero]

/-- Client 1 places an order and asks for nothing. -/
def unaskedOrder : List Label :=
  [.accept 1 true .zero, .connect 2 true, .clientSends 1 ([10, 51] ++ List.replicate 192 0),
    .serverReceivesRequest 1 .zero .zero]

set_option maxRecDepth 10000 in
theorem authenticated_iff_askedOrder :
    ∃ final, (system .four).run started askedOrder = some final ∧
      (Authenticated final ↔ (system .four).RunMeets AsksFirst started askedOrder) := by
  have possible : ((system .four).run started askedOrder).isSome = true := by decide +kernel
  rcases Option.isSome_iff_exists.mp possible with ⟨final, runs⟩
  exact ⟨final, runs, authenticated_iff (initial_started .four) runs⟩

set_option maxRecDepth 10000 in
/-- The order is forwarded; the client has been sent its greeting only. -/
theorem not_authenticated_unaskedOrder :
    ∃ final, (system .four).Reachable final ∧ ¬Authenticated final := by
  have logged : ((system .four).run started unaskedOrder).map (fun state =>
      state.sent.map fun entry => (entry.1, isAuthAck entry.2, isForwarded 1 entry.2)) =
        some [(1, false, false), (2, false, true)] := by
    decide +kernel
  rw [Option.map_eq_some_iff] at logged
  rcases logged with ⟨final, runs, logged⟩
  refine ⟨final, Transition.System.reachable_of_run (initial_started .four) runs, ?_⟩
  rw [List.map_eq_cons_iff] at logged
  rcases logged with ⟨greeting, rest, sent, greeted, placed⟩
  rw [List.map_eq_singleton_iff] at placed
  rcases placed with ⟨order, rfl, ordered⟩
  rw [Prod.mk.injEq, Prod.mk.injEq] at greeted ordered
  intro authenticated
  rcases authenticated [greeting] order [] 1 sent ordered.2.2 with ⟨earlier, earlier_mem, grants⟩
  rw [List.mem_singleton] at earlier_mem
  rw [earlier_mem, Grants, greeted.2.1] at grants
  exact absurd grants.2 (by decide)

end OrderService

end SunPush
