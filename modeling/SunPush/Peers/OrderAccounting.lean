import SunPush.Peers.OrderService
import SunPush.PushServer.UserIndexes

/-!
# Every acknowledgement has its order

For each connection id the acknowledgements sent to it, the answers on their way
back from the web server and the orders on their way to it are at most the
orders received from it.  A step moves a message from one of these to the next
or loses it; only the arrival of an order makes room for another one.
-/

namespace SunPush

open CInteger LittleEndian

namespace OrderService

/-- An order forwarded for a connection. -/
def isForwarded (connectID : Int) (frame : List UInt8) : Bool :=
  frame.getD 4 0 = wsData ∧ frame.getD 5 0 = 52 ∧
    toLong (decode ((frame.drop 7).take 4)) = connectID

/-- An answer of the web server for a connection. -/
def isAnswer (connectID : Int) (frame : List UInt8) : Bool :=
  frame.getD 4 0 = wsData ∧ frame.getD 5 0 = 4 ∧
    toLong (decode ((frame.drop 6).take 4)) = connectID

def forwarded (state : State) (connectID : Int) : Nat :=
  state.fromServer.countP fun entry => isForwarded connectID entry.2

def answered (state : State) (connectID : Int) : Nat :=
  state.fromWebServer.countP fun entry => isAnswer connectID entry.2

/-- The frame of a message object. -/
def frameOf (message : Memory) (length : UInt16) (beyond : Nat → UInt8) : List UInt8 :=
  Outgoing.frame (fun i : Nat => message i) length beyond

/-- What the push server sends to the web server. -/
inductive ToWebServer : List UInt8 → Prop where
  | auth (stack : Memory) (beyond : Nat → UInt8) :
      ToWebServer (frameOf (pushSvrAuthSyn stack) 34 beyond)
  | order (stack : Memory) (userGID : Int) (msg : Memory) (beyond : Nat → UInt8) :
      ToWebServer (frameOf (testOrderSyn stack userGID msg) 198 beyond)

/-- What the web server writes. -/
inductive FromWebServer : List UInt8 → Prop where
  | connected : FromWebServer [2, 0, 0, 0, 50, 0]
  | result (byResult : UInt8) : FromWebServer [3, 0, 0, 0, 50, 2, byResult]
  | answer (syn : Memory) : FromWebServer (TestOrderSyn.answer syn)

def IsPeer (state : State) (connectID : Int) (peer : Peer) : Prop :=
  (state.lines connectID).map Line.peer = some peer

/-- The invariant.  `spare` acknowledgements, answers or forwarded orders of each connection may
still be made. -/
structure Accounted (state : State) (spare : Int → Nat) : Prop where
  counted : ∀ connectID,
    acks state connectID + answered state connectID + forwarded state connectID +
      spare connectID ≤ orders state connectID
  users : ∀ connectID user, state.server.users.findUserByConnectID connectID = some user →
    user < state.server.users.constructed ∧
      (state.server.users.poolPlayers user).connectID = connectID ∧
      toLong connectID = connectID ∧ IsPeer state connectID .client
  received : ∀ entry ∈ state.received, IsPeer state entry.1 .client
  fromServer : ∀ entry ∈ state.fromServer,
    IsPeer state entry.1 .client ∨ IsPeer state entry.1 .webServer ∧ ToWebServer entry.2
  fromWebServer : ∀ entry ∈ state.fromWebServer, FromWebServer entry.2
  script : ∀ connectID socket, state.script = .serving connectID socket →
    socket = .listening [] [] ∧ IsPeer state connectID .webServer

theorem toLong_toSizeT (value : Int) : toLong (toSizeT value) = toLong value := by
  have nonneg : 0 ≤ value % 2 ^ 32 := Int.emod_nonneg _ (by decide)
  rw [toLong, toSizeT, Int.toNat_of_nonneg nonneg]
  exact Int.emod_bmod value (2 ^ 32)

/-- The order of a connection names it. -/
theorem iUserGID_testOrderSyn (stack : Memory) (userGID : Int) (msg : Memory) :
    TestOrderSyn.iUserGID (testOrderSyn stack userGID msg) = toLong userGID := by
  have number : (testOrderSyn stack userGID msg).read 3 4 = encode 4 (toSizeT userGID) := rfl
  have bounded : toSizeT userGID < 2 ^ 32 := by
    simp only [toSizeT]
    omega
  have value : decode (encode 4 (toSizeT userGID)) = toSizeT userGID := by
    rw [decode_encode]
    exact Nat.mod_eq_of_lt bounded
  rw [TestOrderSyn.iUserGID, number, value, toLong_toSizeT]

theorem isForwarded_order (stack : Memory) (userGID : Int) (msg : Memory) (beyond : Nat → UInt8)
    (connectID : Int) :
    isForwarded connectID (frameOf (testOrderSyn stack userGID msg) 198 beyond) ↔
      TestOrderSyn.iUserGID (testOrderSyn stack userGID msg) = connectID := by
  have category : (frameOf (testOrderSyn stack userGID msg) 198 beyond).getD 4 0 = wsData := rfl
  have protocol : (frameOf (testOrderSyn stack userGID msg) 198 beyond).getD 5 0 = 52 := rfl
  have number : ((frameOf (testOrderSyn stack userGID msg) 198 beyond).drop 7).take 4 =
      (testOrderSyn stack userGID msg).read 3 4 := rfl
  simp only [isForwarded, category, protocol, number, true_and, decide_eq_true_eq]
  rfl

theorem isAnswer_answer (syn : Memory) (connectID : Int) :
    isAnswer connectID (TestOrderSyn.answer syn) ↔ TestOrderSyn.iUserGID syn = connectID := by
  have category : (TestOrderSyn.answer syn).getD 4 0 = wsData := rfl
  have protocol : (TestOrderSyn.answer syn).getD 5 0 = 4 := rfl
  have number : ((TestOrderSyn.answer syn).drop 6).take 4 = syn.read 3 4 := rfl
  simp only [isAnswer, category, protocol, number, true_and, decide_eq_true_eq]
  rfl

theorem transmit_send (state : State) (server : Server) (connectID : Int) (message : Memory)
    {length : UInt16} (fits : length.toNat ≤ maxMsgSize) :
    state.transmit (server.send connectID message length) =
      if (state.lines connectID).any Line.isOpen then
        { state with
          fromServer := state.fromServer ++
            [(connectID, frameOf message length fun i => server.stack i)]
          sent := state.sent ++ [(connectID, frameOf message length fun i => server.stack i)] }
      else state := by
  cases found : (state.lines connectID).any Line.isOpen with
  | false =>
      simp only [State.transmit, Server.send, found, SunPush.send, if_neg (Nat.not_lt.mpr fits)]
      rfl
  | true =>
      have accepted : (SunPush.send false true (fun i : Nat => message i) length
          fun i => server.stack i).sent = some ((length.toNat : Int) + 4) := by
        simp [SunPush.send, Nat.not_lt.mpr fits]
      have block := Outgoing.read_sendBuf accepted state.server.stack
      simp only [State.transmit, Server.send, found, accepted, block, if_true]
      rfl

namespace Accounted

variable {state : State} {spare left : Int → Nat}

theorem mono (accounted : Accounted state spare) (fewer : ∀ connectID, left connectID ≤
    spare connectID) : Accounted state left :=
  { accounted with
    counted := fun connectID =>
      (Nat.add_le_add_left (fewer connectID) _).trans (accounted.counted connectID) }

/-- One message of the push server: an acknowledgement or an order uses up what is spare. -/
theorem transmit (accounted : Accounted state spare) (server : Server) (connectID : Int)
    (message : Memory) {length : UInt16} (fits : length.toNat ≤ maxMsgSize)
    (allowed : IsPeer state connectID .client ∨
      ToWebServer (frameOf message length fun i => server.stack i))
    (cost : ∀ other,
      (if other = connectID ∧ isAck (frameOf message length fun i => server.stack i) then 1
        else 0) +
        (if isForwarded other (frameOf message length fun i => server.stack i) then 1 else 0) +
        left other ≤ spare other) :
    Accounted (state.transmit (server.send connectID message length)) left := by
  have fewer (other : Int) : left other ≤ spare other := by
    have := cost other
    omega
  rw [transmit_send state server connectID message fits]
  generalize frameOf message length (fun i => server.stack i) = frame at allowed cost
  cases found : (state.lines connectID).any Line.isOpen with
  | false => exact accounted.mono fewer
  | true =>
      have known : IsPeer state connectID .client ∨ IsPeer state connectID .webServer := by
        rw [Option.any_eq_true] at found
        rcases found with ⟨line, line_eq, _⟩
        cases peer : line.peer with
        | client => exact .inl (by rw [IsPeer, line_eq, Option.map_some, peer])
        | webServer => exact .inr (by rw [IsPeer, line_eq, Option.map_some, peer])
      exact
        { counted := by
            intro other
            have before := accounted.counted other
            have costs := cost other
            have acks_eq : (state.sent ++ [(connectID, frame)]).countP
                (fun entry => entry.1 = other ∧ isAck entry.2) =
                acks state other + if other = connectID ∧ isAck frame then 1 else 0 := by
              simp only [List.countP_append, List.countP_singleton, decide_eq_true_eq,
                @eq_comm _ connectID other]
              rfl
            have forwarded_eq : (state.fromServer ++ [(connectID, frame)]).countP
                (fun entry => isForwarded other entry.2) =
                forwarded state other + if isForwarded other frame then 1 else 0 := by
              simp only [List.countP_append, List.countP_singleton]
              rfl
            simp only [if_true]
            change List.countP _ (state.sent ++ _) + answered state other +
              List.countP _ (state.fromServer ++ _) + left other ≤ orders state other
            rw [acks_eq, forwarded_eq]
            omega
          users := accounted.users
          received := accounted.received
          fromServer := by
            intro entry entry_mem
            simp only [if_true, List.mem_append, List.mem_singleton] at entry_mem
            rcases entry_mem with entry_mem | rfl
            · exact accounted.fromServer entry entry_mem
            · rcases allowed with client | toWebServer
              · exact .inl client
              · rcases known with client | webServer
                · exact .inl client
                · exact .inr ⟨webServer, toWebServer⟩
          fromWebServer := accounted.fromWebServer
          script := accounted.script }

/-- A message of the category of clients that is no acknowledgement costs nothing. -/
theorem transmit_toClient (accounted : Accounted state spare) (server : Server) {connectID : Int}
    {message : Memory} {length : UInt16} (fits : length.toNat ≤ maxMsgSize)
    (client : IsPeer state connectID .client)
    (category : (frameOf message length fun i => server.stack i).getD 4 0 = csLogon)
    (protocol : (frameOf message length fun i => server.stack i).getD 5 0 ≠ 54) :
    Accounted (state.transmit (server.send connectID message length)) spare := by
  have no_ack : isAck (frameOf message length fun i => server.stack i) = false := by
    simp only [isAck, protocol, and_false, decide_false]
  have no_order (other : Int) :
      isForwarded other (frameOf message length fun i => server.stack i) = false := by
    have other_category : csLogon ≠ wsData := by decide
    simp only [isForwarded, category, other_category, false_and, decide_false]
  apply accounted.transmit server connectID message fits (.inl client)
  intro other
  simp [no_ack, no_order]

end Accounted

/-! ## The callbacks -/

/-- The tables have the same users under the same connections. -/
structure SameKeys (before after : UserInfoManager) : Prop where
  constructed : after.constructed = before.constructed
  find : after.findUserByConnectID = before.findUserByConnectID
  connectID : ∀ user,
    (after.poolPlayers user).connectID = (before.poolPlayers user).connectID

theorem sameKeys_modify (users : UserInfoManager) (user : Nat)
    {change : UserInfomation → UserInfomation}
    (keeps : ∀ info, (change info).connectID = info.connectID) :
    SameKeys users (users.modify user change) where
  constructed := rfl
  find := rfl
  connectID other := users.connectID_modify user other change keeps

namespace Accounted

variable {state : State} {spare left : Int → Nat}

theorem setServer (accounted : Accounted state spare) {server : Server}
    (same : SameKeys state.server.users server.users) :
    Accounted { state with server := server } spare :=
  { accounted with
    users := by
      intro connectID user found
      change server.users.findUserByConnectID connectID = some user at found
      change user < server.users.constructed ∧
        (server.users.poolPlayers user).connectID = connectID ∧ _
      rw [same.find] at found
      rw [same.constructed, same.connectID]
      exact accounted.users connectID user found }

theorem kickUser (accounted : Accounted state spare) {connectID : Int} {user : Nat}
    (found : state.server.users.findUserByConnectID connectID = some user) :
    Accounted (state.finish (state.server.kickUser user)) spare := by
  have keys := accounted.users connectID user found
  have same : SameKeys state.server.users (state.server.changeStatus user .error).users :=
    @sameKeys_modify _ user (fun info => { info with userStatus := .error }) fun _ => rfl
  have changed := accounted.setServer same
  have own : ((state.server.changeStatus user .error).info user).connectID = connectID :=
    (same.connectID user).trans keys.2.1
  have announced : Accounted (State.transmit
      { state with server := state.server.changeStatus user .error }
      ((state.server.changeStatus user .error).sendToClient user (kickUserCmd state.server.stack)
        4)) spare := by
    rw [Server.sendToClient, own]
    exact changed.transmit_toClient _ (by decide) keys.2.2.2 rfl (show (4 : UInt8) ≠ 54 by decide)
  -- the delayed close changes nothing here
  rw [Server.kickUser, State.finish, List.foldl_append]
  change Accounted (List.foldl State.transmit
    { state with server := state.server.changeStatus user .error } _) spare
  cases kind : (state.server.changeStatus user .error).serverType with
  | push => exact announced
  | null => exact changed
  | agent => exact changed
  | data => exact changed

theorem userAuthSyn (accounted : Accounted state spare) {connectID : Int} {user : Nat}
    (found : state.server.users.findUserByConnectID connectID = some user) (msg : Memory)
    (size : UInt16) :
    Accounted (state.finish (state.server.handlerC2SUserAuthSyn user msg size)) spare := by
  rw [Server.handlerC2SUserAuthSyn]
  split
  · exact accounted.kickUser found
  · have keys := accounted.users connectID user found
    let name := strncpyS (state.server.info user).accountName 20 (fun i => msg (2 + i)) 32
    have same := @sameKeys_modify state.server.users user
      (fun info => { info with accountName := name.1 }) fun _ => rfl
    let server := { state.server with
      users := state.server.users.modify user fun info => { info with accountName := name.1 }
      invalidParameter := state.server.invalidParameter || name.2 }
    have changed : Accounted { state with server := server } spare := accounted.setServer same
    have own : (server.info user).connectID = connectID := (same.connectID user).trans keys.2.1
    change Accounted (State.transmit { state with server := server }
      (server.sendToClient user (userAuthAck server.stack) 3)) spare
    rw [Server.sendToClient, own]
    exact changed.transmit_toClient _ (by decide) keys.2.2.2 rfl (show (2 : UInt8) ≠ 54 by decide)

/-- A well-sized order uses up the room its arrival made. -/
theorem testOrderSyn (accounted : Accounted state spare) {connectID : Int} {user : Nat}
    (found : state.server.users.findUserByConnectID connectID = some user) (msg : Memory)
    {size : UInt16} (room : size = 194 → 1 ≤ spare connectID) :
    Accounted (state.finish (state.server.handlerC2STestOrderSyn user msg size)) fun _ => 0 := by
  have none_left (other : Int) : 0 ≤ spare other := Nat.zero_le _
  rw [Server.handlerC2STestOrderSyn]
  by_cases fits : size = 194
  · have keys := accounted.users connectID user found
    rw [if_neg (not_not_intro fits)]
    change Accounted (state.transmit (state.server.send state.server.webServerConID
      (SunPush.testOrderSyn state.server.stack (state.server.info user).connectID msg) 198))
        fun _ => 0
    apply accounted.transmit _ _ _ (by decide) (.inr (.order ..))
    intro other
    have no_ack : isAck (frameOf (SunPush.testOrderSyn state.server.stack
        (state.server.info user).connectID msg) 198 fun i => state.server.stack i) = false := rfl
    have own : TestOrderSyn.iUserGID (SunPush.testOrderSyn state.server.stack
        (state.server.info user).connectID msg) = connectID := by
      rw [iUserGID_testOrderSyn]
      change toLong (state.server.users.poolPlayers user).connectID = connectID
      rw [keys.2.1, keys.2.2.1]
    simp only [no_ack, isForwarded_order, own]
    by_cases same : connectID = other
    · subst same
      simpa using room fits
    · simp [same]
  · rw [if_pos fits]
    exact (accounted.kickUser found).mono none_left

theorem onClientReadComplete (accounted : Accounted state spare) {connectID : Int} {msg : Memory}
    {length : Int} (room : msg 0 = csLogon → msg 1 = 51 →
      UInt16.ofNat (toUInt16 length) = 194 → 1 ≤ spare connectID) :
    Accounted (state.finish (state.server.onClientReadComplete connectID msg length))
      fun _ => 0 := by
  have none_left (other : Int) : 0 ≤ spare other := Nat.zero_le _
  have done := accounted.mono none_left
  rw [Server.onClientReadComplete]
  by_cases category : msg 0 = csLogon
  · rw [if_neg (not_not_intro category)]
    cases found : state.server.users.findUserByConnectID connectID with
    | none => exact done
    | some user =>
        simp only [Server.parsePacketCS, category, true_and]
        by_cases login : msg 1 = 1
        · rw [if_pos login]
          exact (accounted.userAuthSyn found msg _).mono none_left
        · by_cases order : msg 1 = 51
          · rw [if_neg login, if_pos order]
            exact accounted.testOrderSyn found msg (room category order)
          · rw [if_neg login, if_neg order]
            exact done
  · rw [if_pos category]
    exact done

/-- Where something is spare, an order was received. -/
theorem client_of_spare (accounted : Accounted state spare) {connectID : Int}
    (some_spare : 1 ≤ spare connectID) : IsPeer state connectID .client := by
  have counted := accounted.counted connectID
  have some_order : 0 < orders state connectID := by omega
  rcases List.countP_pos_iff.mp some_order with ⟨entry, entry_mem, placed⟩
  rw [decide_eq_true_eq] at placed
  rw [← placed.1]
  exact accounted.received entry entry_mem

theorem onWebReadComplete (accounted : Accounted state spare) {frame : List UInt8}
    (written : FromWebServer frame)
    (room : ∀ connectID, isAnswer connectID frame → 1 ≤ spare connectID) (connIndex : Int)
    (rest : Memory) :
    Accounted (state.finish (state.server.onWebReadComplete connIndex
      (buffer rest (frame.drop 4)))) fun _ => 0 := by
  have done := accounted.mono fun other => Nat.zero_le (spare other)
  cases written with
  | connected =>
      change Accounted (state.transmit (state.server.send connIndex
        (pushSvrAuthSyn state.server.stack) 34)) fun _ => 0
      apply accounted.transmit _ _ _ (by decide) (.inr (.auth ..))
      intro other
      have no_ack : isAck (frameOf (pushSvrAuthSyn state.server.stack) 34
          fun i => state.server.stack i) = false := rfl
      have no_order : isForwarded other (frameOf (pushSvrAuthSyn state.server.stack) 34
          fun i => state.server.stack i) = false := rfl
      simp [no_ack, no_order]
  | result byResult => exact done
  | answer syn =>
      have received : (buffer rest ((TestOrderSyn.answer syn).drop 4)).read 0 10 =
          (TestOrderSyn.answer syn).drop 4 := Memory.read_write_self ..
      rw [(TestOrderSyn.answered syn).iUsrConID _ _ _ received]
      have some_spare := room _ ((isAnswer_answer syn _).mpr rfl)
      change Accounted (state.transmit (state.server.send (TestOrderSyn.iUserGID syn)
        (testOrderAck state.server.stack) 3)) fun _ => 0
      generalize TestOrderSyn.iUserGID syn = connectID at some_spare ⊢
      apply accounted.transmit _ _ _ (by decide) (.inl (accounted.client_of_spare some_spare))
      intro other
      have no_order : isForwarded other (frameOf (testOrderAck state.server.stack) 3
          fun i => state.server.stack i) = false := rfl
      have ack : isAck (frameOf (testOrderAck state.server.stack) 3
          fun i => state.server.stack i) = true := rfl
      simp only [no_order, ack]
      by_cases same : other = connectID
      · subst same
        simpa using some_spare
      · simp [same]

theorem enterUser (accounted : Accounted state spare) {connectID : Int}
    (client : IsPeer state connectID .client) (in_range : toLong connectID = connectID)
    {server : Server} (entered : server.users =
      (state.server.users.entered connectID).updateCounts) :
    Accounted { state with server := server } spare :=
  { accounted with
    users := by
      intro key user found
      change server.users.findUserByConnectID key = some user at found
      change user < server.users.constructed ∧
        (server.users.poolPlayers user).connectID = key ∧ _
      rw [entered] at found ⊢
      change (state.server.users.entered connectID).findUserByConnectID key = some user at found
      change user < state.server.users.constructed + 1 ∧
        ((state.server.users.entered connectID).poolPlayers user).connectID = key ∧ _
      rw [UserInfoManager.find_entered] at found
      split at found
      · rw [Option.some.injEq] at found
        subst found
        have record : (state.server.users.entered connectID).poolPlayers
            state.server.users.constructed =
            { UserInfomation.construct with connectID := connectID } := Function.update_self ..
        subst_vars
        rw [record]
        exact ⟨Nat.lt_succ_self _, rfl, in_range, client⟩
      · have keys := accounted.users key user found
        have record : (state.server.users.entered connectID).poolPlayers user =
            state.server.users.poolPlayers user :=
          Function.update_of_ne (Nat.ne_of_lt keys.1) _ _
        rw [record]
        exact ⟨keys.1.trans (Nat.lt_succ_self _), keys.2⟩ }

theorem onAccept (accounted : Accounted state spare) {connectID : Int}
    (client : IsPeer state connectID .client) (in_range : toLong connectID = connectID)
    (absent : state.server.users.findUserByConnectID connectID = none) (memory : Bool) :
    Accounted (state.finish (state.server.onAccept connectID memory)) spare := by
  cases memory with
  | false =>
      have refused : state.server.users.addUser connectID 0 false =
          (none, state.server.users) := by
        rw [UserInfoManager.findUserByConnectID] at absent
        simp [UserInfoManager.addUser, UserInfoManager.enterUser, absent]
      rw [Server.onAccept, refused]
      exact accounted
  | true =>
      have added : state.server.users.addUser connectID 0 true =
          (some state.server.users.constructed,
            (state.server.users.entered connectID).updateCounts) := by
        simp [UserInfoManager.addUser, UserInfoManager.enterUser_of_absent absent]
      rw [Server.onAccept, added]
      let server := { state.server with
        users := (state.server.users.entered connectID).updateCounts }
      have entered : Accounted { state with server := server } spare :=
        accounted.enterUser client in_range rfl
      have same : SameKeys server.users
          (server.changeStatus state.server.users.constructed .connected).users :=
        @sameKeys_modify _ state.server.users.constructed
          (fun info => { info with userStatus := .connected }) fun _ => rfl
      have changed := entered.setServer same
      exact changed.transmit_toClient _ (by decide) client rfl (show (0 : UInt8) ≠ 54 by decide)

end Accounted

/-! ## Messages that arrive -/

theorem isPeer_setLine {state : State} {connectID : Int} {line : Line}
    (same : ∀ old, state.lines connectID = some old → old.peer = line.peer) {other : Int}
    {peer : Peer} (known : IsPeer state other peer) :
    IsPeer (state.setLine connectID line) other peer := by
  simp only [IsPeer, State.setLine] at known ⊢
  by_cases here : other = connectID
  · subst here
    rw [Option.map_eq_some_iff] at known
    rcases known with ⟨old, old_eq, rfl⟩
    rw [Function.update_self, Option.map_some, same old old_eq]
  · rwa [Function.update_of_ne here]

/-- What a handler checks of a delivered message. -/
theorem buffer_iff (rest : Memory) {message : List UInt8} (delivered : Delivered message)
    {size : UInt16} (two : 2 ≤ size.toNat) (protocol : UInt8) :
    (buffer rest message 0 = csLogon ∧ buffer rest message 1 = protocol ∧
        UInt16.ofNat (toUInt16 message.length) = size) ↔
      message.length = size.toNat ∧ message.getD 0 0 = csLogon ∧ message.getD 1 0 = protocol := by
  have bounded : message.length ≤ 8180 := delivered.2
  have length_iff : UInt16.ofNat (toUInt16 message.length) = size ↔
      message.length = size.toNat := by
    rw [← UInt16.toNat_inj, toUInt16_natCast, Nat.mod_eq_of_lt (by omega), UInt16.toNat_ofNat',
      Nat.mod_eq_of_lt (by omega)]
  have byte (i : Nat) (inside : i < message.length) :
      message.getD i 0 = buffer rest message i := by
    have stored := @Memory.write_inside rest 0 message i inside
    rw [Int.zero_add] at stored
    rw [buffer, stored, List.getD_eq_getElem _ _ inside]
  rw [length_iff]
  constructor
  · rintro ⟨category, same, length⟩
    exact ⟨length, (byte 0 (by omega)).trans category, (byte 1 (by omega)).trans same⟩
  · rintro ⟨length, category, same⟩
    exact ⟨(byte 0 (by omega)).symm.trans category, (byte 1 (by omega)).symm.trans same, length⟩

/-- The handler's checks are those of a well-sized order. -/
theorem isOrder_iff (rest : Memory) {message : List UInt8} (delivered : Delivered message) :
    isOrder message = true ↔ buffer rest message 0 = csLogon ∧ buffer rest message 1 = 51 ∧
      UInt16.ofNat (toUInt16 message.length) = 194 := by
  rw [buffer_iff rest delivered (by decide), isOrder, decide_eq_true_eq]
  rfl

theorem isPeer_of_isOpen {state : State} {connectID : Int} {peer : Peer}
    (opened : state.isOpen connectID peer) : IsPeer state connectID peer := by
  rw [State.isOpen, decide_eq_true_eq] at opened
  rw [IsPeer, opened, Option.map_some]

namespace Accounted

variable {state : State} {spare left : Int → Nat}

theorem setLine (accounted : Accounted state spare) {connectID : Int} {line : Line}
    (same : ∀ old, state.lines connectID = some old → old.peer = line.peer) :
    Accounted (state.setLine connectID line) spare where
  counted := accounted.counted
  users := by
    intro key user found
    have keys := accounted.users key user found
    exact ⟨keys.1, keys.2.1, keys.2.2.1, isPeer_setLine same keys.2.2.2⟩
  received := by
    intro entry entry_mem
    exact isPeer_setLine same (accounted.received entry entry_mem)
  fromServer := by
    intro entry entry_mem
    rcases accounted.fromServer entry entry_mem with client | ⟨webServer, frame⟩
    · exact .inl (isPeer_setLine same client)
    · exact .inr ⟨isPeer_setLine same webServer, frame⟩
  fromWebServer := accounted.fromWebServer
  script := by
    intro key socket serving
    have known := accounted.script key socket serving
    exact ⟨known.1, isPeer_setLine same known.2⟩

theorem withStack (accounted : Accounted state spare) (stack : Memory) :
    Accounted (state.withStack stack) spare :=
  { accounted with }

/-- A frame that leaves the channels of the push server makes room if it is an order. -/
theorem takeFromServer (accounted : Accounted state spare) {connectID : Int} {frame : List UInt8}
    {rest : List (Int × List UInt8)}
    (taken : Channels.take connectID state.fromServer = some (frame, rest)) :
    Accounted { state with fromServer := rest }
      fun other => spare other + if isForwarded other frame then 1 else 0 :=
  { accounted with
    counted := by
      intro other
      have before := accounted.counted other
      have split : forwarded state other = rest.countP (fun entry => isForwarded other entry.2) +
          if isForwarded other frame then 1 else 0 := Channels.countP_take taken _
      change acks state other + answered state other +
        rest.countP (fun entry => isForwarded other entry.2) + (_ + _) ≤ orders state other
      omega
    fromServer := by
      intro entry entry_mem
      exact accounted.fromServer entry ((Channels.mem_of_take taken).2 entry entry_mem) }

theorem takeFromWebServer (accounted : Accounted state spare) {connectID : Int}
    {frame : List UInt8} {rest : List (Int × List UInt8)}
    (taken : Channels.take connectID state.fromWebServer = some (frame, rest)) :
    Accounted { state with fromWebServer := rest }
      fun other => spare other + if isAnswer other frame then 1 else 0 :=
  { accounted with
    counted := by
      intro other
      have before := accounted.counted other
      have split : answered state other = rest.countP (fun entry => isAnswer other entry.2) +
          if isAnswer other frame then 1 else 0 := Channels.countP_take taken _
      change acks state other + rest.countP (fun entry => isAnswer other entry.2) +
        forwarded state other + (_ + _) ≤ orders state other
      omega
    fromWebServer := by
      intro entry entry_mem
      exact accounted.fromWebServer entry ((Channels.mem_of_take taken).2 entry entry_mem) }

/-- The arrival of an order makes room. -/
theorem receive (accounted : Accounted state spare) {connectID : Int} {message : List UInt8}
    (client : IsPeer state connectID .client) :
    Accounted { state with received := state.received ++ [(connectID, message)] }
      fun other => spare other + if connectID = other ∧ isOrder message then 1 else 0 :=
  { accounted with
    counted := by
      intro other
      have before := accounted.counted other
      have orders_eq : (state.received ++ [(connectID, message)]).countP
          (fun entry => entry.1 = other ∧ isOrder entry.2) =
          orders state other + if connectID = other ∧ isOrder message then 1 else 0 := by
        simp only [List.countP_append, List.countP_singleton, decide_eq_true_eq]
        rfl
      change acks state other + answered state other + forwarded state other + (_ + _) ≤
        List.countP _ (state.received ++ _)
      rw [orders_eq]
      omega
    received := by
      intro entry entry_mem
      simp only [List.mem_append, List.mem_singleton] at entry_mem
      rcases entry_mem with entry_mem | rfl
      · exact accounted.received entry entry_mem
      · exact client }

/-- The web server writes one frame. -/
theorem answers (accounted : Accounted state spare) {frame : List UInt8}
    (written : FromWebServer frame)
    (cost : ∀ other, (if isAnswer other frame then 1 else 0) + left other ≤ spare other)
    (connectID : Int) : Accounted (state.answers connectID [frame]) left :=
  { accounted with
    counted := by
      intro other
      have before := accounted.counted other
      have costs := cost other
      have answered_eq : (state.fromWebServer ++ [(connectID, frame)]).countP
          (fun entry => isAnswer other entry.2) =
          answered state other + if isAnswer other frame then 1 else 0 := by
        simp only [List.countP_append, List.countP_singleton]
        rfl
      change acks state other + List.countP _ (state.fromWebServer ++ _) + forwarded state other +
        left other ≤ orders state other
      rw [List.map_singleton, answered_eq]
      omega
    fromWebServer := by
      intro entry entry_mem
      simp only [State.answers, List.map_singleton, List.mem_append,
        List.mem_singleton] at entry_mem
      rcases entry_mem with entry_mem | rfl
      · exact accounted.fromWebServer entry entry_mem
      · exact written }

end Accounted

/-! ## The web server's script -/

/-- The script confirms a push server's key, and answers an order unless its type ends it. -/
theorem msgHandler_toWebServer (size : WebServer.IntSize) {frame : List UInt8}
    (toWebServer : ToWebServer frame) :
    WebServer.msgHandler size (.listening frame []) = none ∨
      ∃ reply, WebServer.msgHandler size (.listening frame []) = some (.listening [] [reply]) ∧
        FromWebServer reply ∧
        ∀ connectID, isAnswer connectID reply → isForwarded connectID frame := by
  cases toWebServer with
  | auth stack beyond =>
      have frame_eq : frameOf (pushSvrAuthSyn stack) 34 beyond =
          (List.range 4).map (wordBytes 34 beyond) ++
            (50 :: 1 :: (WebServer.authStr ++ [])) := rfl
      have handled := @WebServer.msgHandler_pushSvrAuth size
        ((List.range 4).map (wordBytes 34 beyond)) rfl [] []
      rw [← frame_eq] at handled
      right
      refine ⟨_, handled, .result 1, ?_⟩
      intro connectID answer
      contradiction
  | order stack userGID msg beyond =>
      have handled := TestOrderSyn.msgHandler_frame
        (show testOrderSyn stack userGID msg 0 = wsData from rfl) rfl size beyond [] []
      rw [WebServer.handlerS2WTestOrderSyn, TestOrderSyn.construct_fields,
        List.append_nil] at handled
      change WebServer.msgHandler size
        (.listening (frameOf (testOrderSyn stack userGID msg) 198 beyond) []) = _ at handled
      split at handled
      · exact .inl handled
      · simp only [Option.bind_eq_bind, Option.bind_some, TestOrderSyn.writePack_record] at handled
        right
        refine ⟨_, handled, .answer _, ?_⟩
        intro connectID answer
        rw [isAnswer_answer] at answer
        rwa [isForwarded_order]

namespace Accounted

variable {state : State} {spare left : Int → Nat}

theorem webServerReceives (accounted : Accounted state fun _ => 0) {size : WebServer.IntSize}
    {next : State} (enabled : step size state .webServerReceives = some next) :
    Accounted next fun _ => 0 := by
  cases script : state.script with
  | listening => simp [step, script] at enabled
  | ended => simp [step, script] at enabled
  | serving connectID socket =>
      rcases accounted.script connectID socket script with ⟨rfl, webServer⟩
      simp only [step, script, Option.map_eq_some_iff] at enabled
      rcases enabled with ⟨⟨frame, rest⟩, taken, rfl⟩
      have taking := accounted.takeFromServer taken
      have toWebServer : ToWebServer frame := by
        rcases accounted.fromServer _ (Channels.mem_of_take taken).1 with client | ⟨_, frame⟩
        · rw [IsPeer] at client webServer
          rw [client] at webServer
          contradiction
        · exact frame
      have input : { WebServer.Socket.listening [] [] with
          input := (WebServer.Socket.listening [] []).input ++ frame } =
          WebServer.Socket.listening frame [] := rfl
      rw [input]
      rcases msgHandler_toWebServer size toWebServer with dies | ⟨reply, replies, written, named⟩
      · rw [dies]
        exact
          { taking.mono fun other => Nat.zero_le _ with
            script := by
              intro key other serving
              contradiction }
      · rw [replies]
        have serving : Accounted { state with
            fromServer := rest
            script := .serving connectID (.listening [] []) } _ :=
          { taking with
            script := by
              intro key other serving
              cases serving
              exact ⟨rfl, webServer⟩ }
        refine serving.answers written ?_ connectID
        intro other
        by_cases answer : isAnswer other reply
        · simp [answer, named other answer]
        · simp [answer]

theorem webServerAccepts (accounted : Accounted state fun _ => 0) {size : WebServer.IntSize}
    {connectID : Int} {next : State}
    (enabled : step size state (.webServerAccepts connectID) = some next) :
    Accounted next fun _ => 0 := by
  cases script : state.script with
  | serving connectID socket => simp [step, script] at enabled
  | ended => simp [step, script] at enabled
  | listening =>
      simp only [step, script, Option.ite_none_right_eq_some, Option.some.injEq] at enabled
      rcases enabled with ⟨opened, rfl⟩
      have confirms : WebServer.confirmConnect size (.listening [] []) =
          .listening [] [[2, 0, 0, 0, 50, 0]] := by
        cases size <;> rfl
      rw [confirms]
      have serving : Accounted { state with script := .serving connectID (.listening [] []) }
          fun _ => 0 :=
        { accounted with
          script := by
            intro key other serving
            cases serving
            exact ⟨rfl, isPeer_of_isOpen opened⟩ }
      refine serving.answers .connected ?_ connectID
      intro other
      have no_answer : isAnswer other [2, 0, 0, 0, 50, 0] = false := rfl
      simp [no_answer]

theorem accept (accounted : Accounted state fun _ => 0) {connectID : Int}
    (unused : state.lines connectID = none) (in_range : toLong connectID = connectID)
    (memory : Bool) (stack : Memory) :
    Accounted (((state.setLine connectID ⟨.client, true⟩).withStack stack).finish
      (((state.setLine connectID ⟨.client, true⟩).withStack stack).server.onAccept connectID
        memory)) fun _ => 0 := by
  have opened := @setLine _ _ accounted connectID ⟨.client, true⟩ (by simp [unused])
  have lined := opened.withStack stack
  have client : IsPeer ((state.setLine connectID ⟨.client, true⟩).withStack stack) connectID
      .client := by
    change (Function.update state.lines connectID _ connectID).map Line.peer = _
    rw [Function.update_self, Option.map_some]
  have absent : state.server.users.findUserByConnectID connectID = none := by
    cases found : state.server.users.findUserByConnectID connectID with
    | none => rfl
    | some user =>
        have known := (accounted.users connectID user found).2.2.2
        simp [IsPeer, unused] at known
  exact lined.onAccept client in_range absent memory

theorem serverReceivesRequest (accounted : Accounted state fun _ => 0) {connectID : Int}
    (client : IsPeer state connectID .client) (message : List UInt8) (rest stack : Memory)
    (delivered : Delivered message) :
    Accounted
      (({ state with received := state.received ++ [(connectID, message)] }.withStack stack).finish
        (({ state with received := state.received ++ [(connectID, message)] }.withStack
          stack).server.onClientReadComplete connectID (buffer rest message) message.length))
      fun _ => 0 := by
  apply ((accounted.receive client).withStack stack).onClientReadComplete
  intro category protocol size
  simp [(isOrder_iff rest delivered).mpr ⟨category, protocol, size⟩]

theorem step (accounted : Accounted state fun _ => 0) {size : WebServer.IntSize} {label : Label}
    {next : State} (enabled : step size state label = some next) :
    Accounted next fun _ => 0 := by
  cases label with
  | accept connectID memory stack =>
      simp only [OrderService.step, Option.ite_none_right_eq_some, Option.some.injEq] at enabled
      rcases enabled with ⟨⟨unused, in_range⟩, rfl⟩
      exact accounted.accept unused in_range memory stack
  | connect connectID succeeds =>
      simp only [OrderService.step, Option.ite_none_right_eq_some, Option.some.injEq] at enabled
      rcases enabled with ⟨⟨unused, _⟩, rfl⟩
      have lined := @setLine _ _ accounted connectID ⟨.webServer, succeeds⟩ (by simp [unused])
      exact { lined with }
  | close connectID =>
      simp only [OrderService.step, Option.map_eq_some_iff] at enabled
      rcases enabled with ⟨line, line_eq, rfl⟩
      apply accounted.setLine
      intro old old_eq
      rw [line_eq, Option.some.injEq] at old_eq
      rw [old_eq]
  | clientSends connectID message =>
      simp only [OrderService.step, Option.ite_none_right_eq_some, Option.some.injEq] at enabled
      rcases enabled with ⟨_, rfl⟩
      exact { accounted with }
  | clientReceives connectID =>
      simp only [OrderService.step, Option.ite_none_right_eq_some, Option.map_eq_some_iff]
        at enabled
      rcases enabled with ⟨_, ⟨frame, rest⟩, taken, rfl⟩
      exact (accounted.takeFromServer taken).mono fun other => Nat.zero_le _
  | serverReceivesRequest connectID rest stack =>
      simp only [OrderService.step, Option.ite_none_right_eq_some, Option.map_eq_some_iff]
        at enabled
      rcases enabled with ⟨opened, ⟨message, fromClients⟩, taken, rfl⟩
      have taking : Accounted { state with fromClients } fun _ => 0 := { accounted with }
      by_cases delivered : Delivered message
      · simp only [if_pos delivered]
        exact taking.serverReceivesRequest (isPeer_of_isOpen opened) message rest stack delivered
      · simp only [if_neg delivered]
        exact taking
  | serverReceivesAnswer connectID rest stack =>
      simp only [OrderService.step, Option.ite_none_right_eq_some, Option.map_eq_some_iff]
        at enabled
      rcases enabled with ⟨opened, ⟨frame, fromWebServer⟩, taken, rfl⟩
      have taking := accounted.takeFromWebServer taken
      have written := accounted.fromWebServer _ (Channels.mem_of_take taken).1
      by_cases delivered : Delivered (frame.drop 4)
      · simp only [if_pos delivered]
        apply (taking.withStack stack).onWebReadComplete written
        intro other answer
        simp [answer]
      · simp only [if_neg delivered]
        exact taking.mono fun other => Nat.zero_le _
  | webServerAccepts connectID => exact accounted.webServerAccepts enabled
  | webServerReceives => exact accounted.webServerReceives enabled
  | webServerEnds =>
      rcases Option.some.inj enabled with rfl
      exact
        { accounted with
          script := by
            intro key socket serving
            contradiction }

end Accounted

theorem accounted_initial {state : State} (initial : Initial state) :
    Accounted state fun _ => 0 where
  counted := by
    intro connectID
    simp [acks, answered, forwarded, initial.sent, initial.fromWebServer, initial.fromServer]
  users := by
    intro connectID user found
    rw [initial.server] at found
    exact absurd (UserInfoManager.has_iff.mpr ⟨user, found⟩)
      (UserInfoManager.not_has_empty connectID)
  received := by simp [initial.received]
  fromServer := by simp [initial.fromServer]
  fromWebServer := by simp [initial.fromWebServer]
  script := by simp [initial.script]

/-- In every reachable state no connection has been sent more acknowledgements than it has placed
orders, so one that has placed none has been sent none. -/
theorem acks_le_orders (size : WebServer.IntSize) {state : State}
    (reached : (system size).Reachable state) (connectID : Int) :
    acks state connectID ≤ orders state connectID ∧
      (orders state connectID = 0 →
        ∀ frame, (connectID, frame) ∈ state.sent → isAck frame = false) := by
  have accounted : Accounted state fun _ => 0 := by
    apply reached.invariant
    · intro initial start
      exact accounted_initial start
    · intro before label after accounted _ enabled
      exact accounted.step enabled
  have counted := accounted.counted connectID
  refine ⟨by omega, ?_⟩
  intro none frame frame_mem
  have no_ack : acks state connectID = 0 := by omega
  have different := List.countP_eq_zero.mp no_ack (connectID, frame) frame_mem
  simpa using different

/-- The three parties when they start, with empty stacks. -/
def started : State where
  server :=
    { users := .empty
      webServerConID := 0
      serverType := .null
      stack := .zero
      invalidParameter := false }
  lines _ := none
  fromClients := []
  fromWebServer := []
  fromServer := []
  script := .listening
  received := []
  sent := []

theorem initial_started (size : WebServer.IntSize) : (system size).Initial started :=
  ⟨rfl, fun _ => rfl, rfl, rfl, rfl, rfl, rfl, rfl⟩

/-- The web server is authenticated, then client 1 places an order and is sent its
acknowledgement. -/
def firstOrder : List Label :=
  [.accept 1 true .zero, .connect 2 true, .webServerAccepts 2,
    .serverReceivesAnswer 2 .zero .zero, .webServerReceives, .serverReceivesAnswer 2 .zero .zero,
    .clientSends 1 ([10, 51] ++ List.replicate 192 0), .serverReceivesRequest 1 .zero .zero,
    .webServerReceives, .serverReceivesAnswer 2 .zero .zero]

set_option maxRecDepth 10000 in
theorem acks_le_orders_firstOrder :
    ∃ state, (system .four).run started firstOrder = some state ∧ acks state 1 = 1 ∧
      acks state 1 ≤ orders state 1 := by
  have sent : ((system .four).run started firstOrder).map (fun state => acks state 1) = some 1 := by
    decide +kernel
  rw [Option.map_eq_some_iff] at sent
  rcases sent with ⟨state, run, one⟩
  exact ⟨state, run, one,
    (acks_le_orders .four (Transition.System.reachable_of_run (initial_started .four) run) 1).1⟩

end OrderService

end SunPush
