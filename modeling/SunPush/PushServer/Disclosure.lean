import SunPush.Library.Noninterference
import SunPush.PushServer.Kicking
import SunPush.Socket.Outgoing

/-!
# What the stack has to do with the messages

Every message object is a local variable whose constructor sets two of its
fields.  The callbacks are run here with a stack of any contents each, and what
they send is compared.  The order for the web server is the one message that
keeps what the stack held, in its field `strTest`; the announcement of a kick,
whose error code is never set either, is not sent under the server type the
server starts with.
-/

namespace SunPush

open CInteger Noninterference

namespace Server

/-! ## The push server as a component -/

/-- A callback that does something, and what it is given. -/
inductive Callback where
  | onAccept (connIndex : Int) (memory : Bool)
  | onConnect (connIndex : Int)
  | onReadComplete (owner : Owner) (connIndex : Int) (msg : NetMsg) (length : Int)

/-- A call of a callback, and what its calls of `Send` meet: the stop flag, and the connections for
which `GetSession` finds a session. -/
structure Occasion where
  callback : Callback
  stopSocketFlag : Bool
  found : Int → Bool

def Callback.run (server : Server) : Callback → Server × List ApiCall
  | .onAccept connIndex memory => server.onAccept connIndex memory
  | .onConnect connIndex => server.onConnect connIndex
  | .onReadComplete owner connIndex msg length =>
      callbacks.onReadComplete owner connIndex msg length server

/-- The payload that a call puts on the socket, and the connection it goes to. -/
def payload (occasion : Occasion) (stack : Memory) : ApiCall → Option (Int × List UInt8)
  | .send connectID encode =>
      let call := encode occasion.stopSocketFlag (occasion.found connectID)
      call.sent.map fun length =>
        (connectID, ((call.sendBuf stack).read 0 length.toNat).drop packetHeaderLength)
  | _ => none

/-- The server with other contents of the stack. -/
def withStack (server : Server) (stack : Memory) : Server :=
  { server with stack }

/-- The callback is run on the stack; between callbacks its contents do not matter. -/
def component : Component Server Occasion Memory (Int × List UInt8) :=
  fun server occasion stack =>
    let result := occasion.callback.run (server.withStack stack)
    (result.1.withStack server.stack, result.2.filterMap (payload occasion stack))

/-- The server after a callback. -/
def after (server : Server) (occasion : Occasion) : Server :=
  (occasion.callback.run server).1

/-- The callback receives a well-sized order of a connection with a user. -/
def Callback.ReceivesOrder (server : Server) (callback : Callback) : Prop :=
  ∃ acceptor connIndex msg length, callback = .onReadComplete (.acceptor acceptor) connIndex msg
    length ∧ server.users.Has connIndex ∧ msg.bufMsg 0 = csLogon ∧ msg.bufMsg 1 = 51 ∧
      UInt16.ofNat (toUInt16 length) = 194

/-- The callback receives such an order while the web server is connected. -/
structure Orders (server : Server) (occasion : Occasion) : Prop where
  receives : occasion.callback.ReceivesOrder server
  running : occasion.stopSocketFlag = false
  found : occasion.found server.webServerConID = true

/-! ## The state does not depend on the stack -/

section State

variable (server : Server) (stack : Memory)

theorem run_withStack_fst (callback : Callback) :
    (callback.run (server.withStack stack)).1 = (callback.run server).1.withStack stack := by
  cases callback with
  | onAccept connIndex memory =>
      simp only [Callback.run, onAccept, withStack]
      split <;> rfl
  | onConnect connIndex => rfl
  | onReadComplete owner connIndex msg length =>
      cases owner with
      | acceptor acceptor =>
          simp only [Callback.run, callbacks, onClientReadComplete, withStack]
          split
          · rfl
          · split
            · rfl
            · simp only [parsePacketCS, handlerC2SUserAuthSyn, handlerC2STestOrderSyn]
              split
              · split <;> rfl
              · split
                · split <;> rfl
                · rfl
      | connector connector =>
          simp only [Callback.run, callbacks, onWebReadComplete, parsePacketWS,
            handlerW2SWsConnectedCmd, handlerW2SAuthResultAck, handlerW2SNewOrderBrdCmd, withStack]
          split
          · rfl
          · split
            · rfl
            · split
              · rfl
              · split <;> rfl

@[simp]
theorem after_stack (occasion : Occasion) : (server.after occasion).stack = server.stack := by
  have same := congrArg Server.stack (run_withStack_fst server server.stack occasion.callback)
  exact same

theorem component_fst (occasion : Occasion) :
    (component server occasion stack).1 = server.after occasion := by
  change (occasion.callback.run (server.withStack stack)).1.withStack server.stack = _
  rw [run_withStack_fst]
  change (server.after occasion).withStack server.stack = _
  rw [withStack, ← after_stack server occasion]

end State

/-! ## What the callbacks send -/

/-- A message object built on the stack, and where it is sent. -/
structure Letter where
  connectID : Int
  object : Memory → Memory
  length : UInt16

/-- Every byte that is sent has been assigned. -/
def Letter.Determined (letter : Letter) : Prop :=
  ∀ stack other, (letter.object stack).read 0 letter.length.toNat =
    (letter.object other).read 0 letter.length.toNat

theorem read_msgBase (stack other : Memory) (category protocol : UInt8) :
    (msgBase stack category protocol).read 0 2 = (msgBase other category protocol).read 0 2 :=
  (Memory.read_write_self stack 0 [category, protocol]).trans
    (Memory.read_write_self other 0 [category, protocol]).symm

theorem determined_svrReadyCmd (connectID : Int) :
    (Letter.mk connectID svrReadyCmd 42).Determined := by
  intro stack other
  have highVer := Memory.read_write_behind (read_msgBase stack other csLogon 0)
    (LittleEndian.encode 2 7)
  have lowVer := Memory.read_write_behind highVer (LittleEndian.encode 2 8)
  have encKey := Memory.read_write_behind lowVer (LittleEndian.encode 4 666)
  exact Memory.read_write_behind encKey toWSAuthStr

theorem determined_userAuthAck (connectID : Int) :
    (Letter.mk connectID userAuthAck 3).Determined :=
  fun stack other => Memory.read_write_behind (read_msgBase stack other csLogon 2) [1]

theorem determined_testOrderAck (connectID : Int) :
    (Letter.mk connectID testOrderAck 3).Determined :=
  fun stack other => Memory.read_write_behind (read_msgBase stack other csLogon 54) [0]

theorem determined_pushSvrAuthSyn (connectID : Int) :
    (Letter.mk connectID pushSvrAuthSyn 34).Determined :=
  fun stack other => Memory.read_write_behind (read_msgBase stack other wsData 1) toWSAuthStr

/-- `strTest` is what the stack held. -/
theorem not_determined_testOrderSyn (connectID userGID : Int) (msg : Memory) :
    ¬(Letter.mk connectID (fun stack => testOrderSyn stack userGID msg) 198).Determined := by
  intro determined
  have same := congrArg (fun bytes => bytes.getD 30 0) (determined .zero fun _ => 1)
  change (0 : UInt8) = 1 at same
  contradiction

def kickLetter (server : Server) (user : Nat) : Option Letter :=
  match server.serverType with
  | .push => some ⟨(server.info user).connectID, kickUserCmd, 4⟩
  | _ => none

/-- What a callback sends, if it sends anything. -/
def letter (server : Server) : Callback → Option Letter
  | .onAccept connIndex memory =>
      (server.users.addUser connIndex 0 memory).1.map fun _ => ⟨connIndex, svrReadyCmd, 42⟩
  | .onConnect _ => none
  | .onReadComplete (.acceptor _) connIndex msg length =>
      if msg.bufMsg 0 ≠ csLogon then none
      else
        (server.users.findUserByConnectID connIndex).bind fun user =>
          if msg.bufMsg 1 = 1 then
            if UInt16.ofNat (toUInt16 length) ≠ 46 then server.kickLetter user
            else some ⟨(server.info user).connectID, userAuthAck, 3⟩
          else if msg.bufMsg 1 = 51 then
            if UInt16.ofNat (toUInt16 length) ≠ 194 then server.kickLetter user
            else
              some ⟨server.webServerConID,
                fun stack => testOrderSyn stack (server.info user).connectID msg.bufMsg, 198⟩
          else none
  | .onReadComplete (.connector _) connIndex msg _ =>
      if msg.bufMsg 0 ≠ wsData then none
      else if msg.bufMsg 1 = 0 then some ⟨connIndex, pushSvrAuthSyn, 34⟩
      else if msg.bufMsg 1 = 4 then
        some ⟨toLong (LittleEndian.decode (msg.bufMsg.read 2 4)), testOrderAck, 3⟩
      else none

/-- The payload of a letter, if its connection is found. -/
def Letter.outputs (letter : Letter) (occasion : Occasion) (stack : Memory) :
    List (Int × List UInt8) :=
  if occasion.stopSocketFlag = false ∧ occasion.found letter.connectID = true then
    [(letter.connectID, (letter.object stack).read 0 letter.length.toNat)]
  else []

theorem filterMap_send (sender : Server) (occasion : Occasion) (connectID : Int)
    (object : Memory → Memory) {length : UInt16} (fits : length.toNat ≤ maxMsgSize) :
    [sender.send connectID (object sender.stack) length].filterMap
        (payload occasion sender.stack) =
      (Letter.mk connectID object length).outputs occasion sender.stack := by
  have small := Nat.not_lt.mpr fits
  rw [Letter.outputs]
  by_cases reaches : occasion.stopSocketFlag = false ∧ occasion.found connectID = true
  · rw [if_pos reaches]
    have accepted : (SunPush.send false true (fun i : Nat => object sender.stack i) length
        fun i => sender.stack i).sent = some ((length.toNat : Int) + 4) := by
      simp [SunPush.send, small]
    have frame := Outgoing.read_sendBuf accepted sender.stack
    have body : ((List.range length.toNat).map fun i : Nat => object sender.stack i) =
        (object sender.stack).read 0 length.toNat := by
      simp only [Memory.read, Int.zero_add]
    have sent : payload occasion sender.stack
        (sender.send connectID (object sender.stack) length) =
          some (connectID, (object sender.stack).read 0 length.toNat) := by
      simp only [payload, Server.send, reaches.1, reaches.2, accepted, Option.map_some, frame]
      rw [← body]
      rfl
    rw [List.filterMap_cons_some sent]
    rfl
  · rw [if_neg reaches]
    have refused : SunPush.send occasion.stopSocketFlag (occasion.found connectID)
        (fun i : Nat => object sender.stack i) length (fun i => sender.stack i) = .refused := by
      rw [SunPush.send, if_neg small]
      cases running : occasion.stopSocketFlag with
      | true => rfl
      | false =>
          cases found : occasion.found connectID with
          | true => exact absurd ⟨running, found⟩ reaches
          | false => rfl
    have unsent : payload occasion sender.stack
        (sender.send connectID (object sender.stack) length) = none := by
      simp only [payload, Server.send, refused]
      rfl
    rw [List.filterMap_cons_none unsent]
    rfl

theorem filterMap_kickUser (server : Server) (occasion : Occasion) (stack : Memory) (user : Nat) :
    ((server.withStack stack).kickUser user).2.filterMap (payload occasion stack) =
      (server.kickLetter user).toList.flatMap fun letter => letter.outputs occasion stack := by
  have same : (((server.withStack stack).changeStatus user .error).info user).connectID =
      (server.info user).connectID :=
    server.users.connectID_modify user user (fun info => { info with userStatus := .error })
      fun _ => rfl
  have type : ((server.withStack stack).changeStatus user .error).serverType =
      server.serverType := rfl
  have closes : ∀ connectID, payload occasion stack (.asyncClose connectID 10) = none :=
    fun _ => rfl
  simp only [Server.kickUser, sendToClient, same, type, kickLetter, List.filterMap_append,
    List.filterMap_cons_none (closes _), List.filterMap_nil, List.append_nil]
  cases server.serverType with
  | push =>
      simp only [Option.toList_some, List.flatMap_singleton]
      exact filterMap_send ((server.withStack stack).changeStatus user .error) occasion
        (server.info user).connectID kickUserCmd (by decide)
  | null => rfl
  | agent => rfl
  | data => rfl

theorem flatMap_outputs (letter : Letter) (occasion : Occasion) (stack : Memory) :
    ((some letter).toList.flatMap fun letter => letter.outputs occasion stack) =
      letter.outputs occasion stack := by
  simp only [Option.toList_some, List.flatMap_singleton]

theorem filterMap_onAccept (server : Server) (occasion : Occasion) (stack : Memory)
    (connIndex : Int) (memory : Bool) :
    ((server.withStack stack).onAccept connIndex memory).2.filterMap (payload occasion stack) =
      (server.letter (.onAccept connIndex memory)).toList.flatMap fun letter =>
        letter.outputs occasion stack := by
  have added : (server.withStack stack).users.addUser connIndex 0 memory =
    server.users.addUser connIndex 0 memory := rfl
  simp only [onAccept, letter, added]
  rcases server.users.addUser connIndex 0 memory with ⟨_ | user, users⟩
  · rfl
  · rw [Option.map_some, flatMap_outputs]
    exact filterMap_send _ occasion connIndex svrReadyCmd (by decide)

theorem filterMap_onClientReadComplete (server : Server) (occasion : Occasion) (stack : Memory)
    (acceptor : Nat) (connIndex : Int) (msg : NetMsg) (length : Int) :
    ((server.withStack stack).onClientReadComplete connIndex msg.bufMsg length).2.filterMap
        (payload occasion stack) =
      (server.letter (.onReadComplete (.acceptor acceptor) connIndex msg
        length)).toList.flatMap fun letter => letter.outputs occasion stack := by
  have users : (server.withStack stack).users = server.users := rfl
  simp only [onClientReadComplete, letter, users]
  by_cases category : msg.bufMsg 0 = csLogon
  · simp only [category, ne_eq, not_true_eq_false, if_false]
    cases server.users.findUserByConnectID connIndex with
    | none => rfl
    | some user =>
        simp only [parsePacketCS, category, true_and, Option.bind_some]
        by_cases login : msg.bufMsg 1 = 1
        · rw [if_pos login, if_pos login, handlerC2SUserAuthSyn]
          split
          · exact filterMap_kickUser server occasion stack user
          · have own : ∀ name, ((server.users.modify user fun info =>
                { info with accountName := name }).poolPlayers user).connectID =
                  (server.users.poolPlayers user).connectID :=
              fun name => server.users.connectID_modify user user
                (fun info => { info with accountName := name }) fun _ => rfl
            rw [flatMap_outputs]
            simp only [sendToClient, info, users, own]
            exact filterMap_send _ occasion _ userAuthAck (by decide)
        · rw [if_neg login, if_neg login]
          by_cases order : msg.bufMsg 1 = 51
          · rw [if_pos order, if_pos order, handlerC2STestOrderSyn]
            split
            · exact filterMap_kickUser server occasion stack user
            · rw [flatMap_outputs]
              exact filterMap_send (server.withStack stack) occasion server.webServerConID
                (fun stack => testOrderSyn stack (server.info user).connectID msg.bufMsg)
                (by decide)
          · rw [if_neg order, if_neg order]
            rfl
  · simp only [category, ne_eq, not_false_eq_true, if_true]
    rfl

theorem filterMap_onWebReadComplete (server : Server) (occasion : Occasion) (stack : Memory)
    (connector : Nat) (connIndex : Int) (msg : NetMsg) (length : Int) :
    ((server.withStack stack).onWebReadComplete connIndex msg.bufMsg).2.filterMap
        (payload occasion stack) =
      (server.letter (.onReadComplete (.connector connector) connIndex msg
        length)).toList.flatMap fun letter => letter.outputs occasion stack := by
  simp only [onWebReadComplete, letter, parsePacketWS, handlerW2SWsConnectedCmd,
    handlerW2SAuthResultAck, handlerW2SNewOrderBrdCmd]
  by_cases category : msg.bufMsg 0 = wsData
  · simp only [category, ne_eq, not_true_eq_false, if_false, true_and]
    by_cases connected : msg.bufMsg 1 = 0
    · rw [if_pos connected, if_pos connected, flatMap_outputs]
      exact filterMap_send (server.withStack stack) occasion connIndex pushSvrAuthSyn (by decide)
    · rw [if_neg connected, if_neg connected]
      by_cases result : msg.bufMsg 1 = 2
      · have other : msg.bufMsg 1 ≠ 4 := by
          rw [result]
          decide
        rw [if_pos result, if_neg other]
        rfl
      · rw [if_neg result]
        by_cases order : msg.bufMsg 1 = 4
        · rw [if_pos order, if_pos order, flatMap_outputs]
          exact filterMap_send (server.withStack stack) occasion _ testOrderAck (by decide)
        · rw [if_neg order, if_neg order]
          rfl
  · simp only [category, ne_eq, not_false_eq_true, if_true]
    rfl

/-- A callback puts its letter on the socket, and nothing else. -/
theorem component_snd (server : Server) (occasion : Occasion) (stack : Memory) :
    (component server occasion stack).2 =
      (server.letter occasion.callback).toList.flatMap fun letter =>
        letter.outputs occasion stack := by
  change (occasion.callback.run (server.withStack stack)).2.filterMap (payload occasion stack) = _
  cases occasion.callback with
  | onAccept connIndex memory =>
      exact filterMap_onAccept server occasion stack connIndex memory
  | onConnect connIndex => rfl
  | onReadComplete owner connIndex msg length =>
      cases owner with
      | acceptor acceptor =>
          exact filterMap_onClientReadComplete server occasion stack acceptor connIndex msg length
      | connector connector =>
          exact filterMap_onWebReadComplete server occasion stack connector connIndex msg length

/-! ## Which callbacks disclose the stack -/

theorem length_outputs (letter : Letter) (occasion : Occasion) (stack other : Memory) :
    (letter.outputs occasion stack).length = (letter.outputs occasion other).length := by
  simp only [Letter.outputs]
  split <;> rfl

theorem blind_component : component.Blind after where
  state server occasion stack := component_fst server stack occasion
  count server occasion stack other := by
    rw [component_snd, component_snd]
    cases server.letter occasion.callback with
    | none => rfl
    | some letter =>
        simp only [Option.toList_some, List.flatMap_singleton]
        exact length_outputs letter occasion stack other

/-- A callback discloses the stack exactly when it sends a message that is not determined. -/
theorem discloses_iff (server : Server) (occasion : Occasion) :
    component.Discloses server occasion ↔
      ∃ letter, server.letter occasion.callback = some letter ∧ ¬letter.Determined ∧
        occasion.stopSocketFlag = false ∧ occasion.found letter.connectID = true := by
  simp only [Component.Discloses, component_snd]
  cases server.letter occasion.callback with
  | none => simp
  | some letter =>
      simp only [Option.toList_some, List.flatMap_singleton, Option.some.injEq, exists_eq_left']
      by_cases reaches : occasion.stopSocketFlag = false ∧ occasion.found letter.connectID = true
      · have written : ∀ stack, letter.outputs occasion stack =
            [(letter.connectID, (letter.object stack).read 0 letter.length.toNat)] :=
          fun _ => if_pos reaches
        simp only [written, ne_eq, List.cons.injEq, Prod.mk.injEq, true_and, and_true,
          Letter.Determined, not_forall]
        exact (and_iff_left reaches).symm
      · have unwritten : ∀ stack, letter.outputs occasion stack = [] := fun _ => if_neg reaches
        simp only [unwritten, ne_eq, not_true_eq_false, exists_false, false_iff]
        intro both
        exact reaches both.2

/-- What a callback sends under the server type that is never assigned is determined, unless it is
an order. -/
theorem determined_or_receivesOrder {server : Server} (null : server.serverType = .null)
    {callback : Callback} {letter : Letter} (sends : server.letter callback = some letter) :
    letter.Determined ∨
      callback.ReceivesOrder server ∧ letter.connectID = server.webServerConID := by
  have unkicked : ∀ user, server.kickLetter user = none := by
    intro user
    rw [kickLetter, null]
  cases callback with
  | onAccept connIndex memory =>
      rw [Server.letter, Option.map_eq_some_iff] at sends
      rcases sends with ⟨_, _, rfl⟩
      exact .inl (determined_svrReadyCmd connIndex)
  | onConnect connIndex => contradiction
  | onReadComplete owner connIndex msg length =>
      cases owner with
      | acceptor acceptor =>
          simp only [Server.letter, unkicked, Option.ite_none_left_eq_some, not_not,
            Option.bind_eq_some_iff] at sends
          rcases sends with ⟨category, user, found, sends⟩
          by_cases login : msg.bufMsg 1 = 1
          · simp only [if_pos login, Option.ite_none_left_eq_some, Option.some.injEq] at sends
            rcases sends with ⟨_, rfl⟩
            exact .inl (determined_userAuthAck _)
          · simp only [if_neg login, Option.ite_none_left_eq_some, Option.ite_none_right_eq_some,
              Option.some.injEq, not_not] at sends
            rcases sends with ⟨order, size, rfl⟩
            right
            exact ⟨⟨acceptor, connIndex, msg, length, rfl,
              UserInfoManager.has_iff.mpr ⟨user, found⟩, category, order, size⟩, rfl⟩
      | connector connector =>
          left
          simp only [Server.letter, Option.ite_none_left_eq_some] at sends
          rcases sends with ⟨_, sends⟩
          split at sends
          · rw [Option.some.injEq] at sends
            subst sends
            exact determined_pushSvrAuthSyn connIndex
          · rw [Option.ite_none_right_eq_some, Option.some.injEq] at sends
            rcases sends with ⟨_, rfl⟩
            exact determined_testOrderAck _

theorem letter_of_receivesOrder {server : Server} {callback : Callback}
    (receives : callback.ReceivesOrder server) :
    ∃ letter, server.letter callback = some letter ∧ ¬letter.Determined ∧
      letter.connectID = server.webServerConID := by
  rcases receives with ⟨acceptor, connIndex, msg, length, rfl, known, category, order, size⟩
  rcases UserInfoManager.has_iff.mp known with ⟨user, found⟩
  have different : (51 : UInt8) ≠ 1 := by decide
  refine ⟨⟨server.webServerConID,
    fun stack => testOrderSyn stack (server.info user).connectID msg.bufMsg, 198⟩, ?_,
    not_determined_testOrderSyn _ _ _, rfl⟩
  simp only [letter, category, found, order, size, different, ne_eq, not_true_eq_false, if_false,
    if_true, Option.bind_some]

/-- Under the server type that is never assigned, orders are the only such messages. -/
theorem discloses_iff_orders {server : Server} (null : server.serverType = .null)
    (occasion : Occasion) : component.Discloses server occasion ↔ server.Orders occasion := by
  rw [discloses_iff]
  constructor
  · rintro ⟨letter, sends, undetermined, running, found⟩
    rcases determined_or_receivesOrder null sends with determined | ⟨receives, toWebServer⟩
    · exact absurd determined undetermined
    · rw [toWebServer] at found
      exact ⟨receives, running, found⟩
  · intro orders
    rcases letter_of_receivesOrder orders.receives with
      ⟨letter, sends, undetermined, toWebServer⟩
    refine ⟨letter, sends, undetermined, orders.running, ?_⟩
    rw [toWebServer]
    exact orders.found

/-! ## Runs -/

theorem Settled.after {server : Server} (settled : server.Settled) (occasion : Occasion) :
    (server.after occasion).Settled := by
  rw [Server.after]
  cases occasion.callback with
  | onAccept connIndex memory => exact settled.onAccept connIndex memory
  | onConnect connIndex => exact ⟨settled.serverType, settled.constructed, settled.connectID⟩
  | onReadComplete owner connIndex msg length =>
      exact settled.onReadComplete owner connIndex msg length

theorem Settled.foldl {server : Server} (settled : server.Settled) (occasions : List Occasion) :
    (occasions.foldl Server.after server).Settled := by
  induction occasions generalizing server with
  | nil => exact settled
  | cons first rest ih => exact ih (settled.after first)

/-- Every run of the service takes the server through a run of the component. -/
theorem exists_occasions {world : World Server} (reached : service.Reachable world) :
    ∃ (start : Server) (occasions : List Occasion), start.Initial ∧
      world.upper = occasions.foldl after start := by
  let Led (server : Server) : Prop := ∃ (start : Server) (occasions : List Occasion),
    start.Initial ∧ server = occasions.foldl after start
  have led_after : ∀ server (callback : Callback), Led server → Led (callback.run server).1 := by
    rintro _ callback ⟨start, occasions, initial, rfl⟩
    refine ⟨start, occasions ++ [⟨callback, false, fun _ => false⟩], initial, ?_⟩
    rw [List.foldl_append]
    rfl
  apply @Transition.System.ReachableBy.invariant _ _ service _ fun state => Led state.upper
  · rintro state ⟨server, initial, rfl⟩
    exact ⟨server, [], initial, rfl⟩
  · intro state label next led _ steps
    refine @World.step_keeps Server callbacks Led (fun _ _ _ => id) state next label
      ?_ ?_ ?_ ?_ steps led
    · intro _ _ _ _ _ _ _ _ acceptor connIndex memory server
      exact led_after server (.onAccept connIndex memory)
    · intro _ _ _ _ _ _ _ connector connIndex errorCode server
      exact led_after server (.onConnect connIndex)
    · intro owner connIndex msg length server
      exact led_after server (.onReadComplete owner connIndex msg length)
    · exact fun _ _ _ _ => id
  · exact reached

/-- Whatever is received, the payloads of a run do not depend on what the stack held exactly when
no well-sized order is received from a connection with a user while the web server is connected. -/
theorem undisclosed_iff {start : Server} (initial : start.Initial) (occasions : List Occasion) :
    component.Undisclosed start occasions ↔
      ∀ before occasion after, occasions = before ++ occasion :: after →
        ¬(before.foldl Server.after start).Orders occasion := by
  rw [Component.undisclosed_iff_forall blind_component]
  have null : ∀ before : List Occasion, (before.foldl after start).serverType = .null := by
    intro before
    exact (initial.settled.foldl before).serverType
  simp only [discloses_iff_orders (null _)]

/-- The web server connects, and client 2 is accepted. -/
def beforeOrder : List Occasion :=
  [⟨.onConnect 1, false, fun _ => true⟩, ⟨.onAccept 2 true, false, fun _ => true⟩]

/-- Client 2 places an order with an empty text. -/
def firstOrder : Occasion where
  callback := .onReadComplete (.acceptor 0) 2
    (getPoolMessage.place 0 ([10, 51] ++ List.replicate 192 0)) 194
  stopSocketFlag := false
  found _ := true

theorem undisclosed_iff_firstOrder :
    component.Undisclosed atStart (beforeOrder ++ [firstOrder]) ↔
      ∀ before occasion after, beforeOrder ++ [firstOrder] = before ++ occasion :: after →
        ¬(before.foldl Server.after atStart).Orders occasion :=
  undisclosed_iff ⟨rfl, rfl, rfl, rfl⟩ (beforeOrder ++ [firstOrder])

/-- The last 168 bytes of the order are those of the stack. -/
theorem not_undisclosed_firstOrder :
    ¬component.Undisclosed atStart (beforeOrder ++ [firstOrder]) := by
  intro undisclosed
  rw [Component.undisclosed_iff_forall blind_component] at undisclosed
  apply undisclosed beforeOrder firstOrder [] rfl
  have null : (beforeOrder.foldl after atStart).serverType = .null := rfl
  have known : (beforeOrder.foldl after atStart).users.Has 2 :=
    UserInfoManager.has_iff.mpr ⟨0, rfl⟩
  have receives : firstOrder.callback.ReceivesOrder (beforeOrder.foldl after atStart) :=
    ⟨0, 2, getPoolMessage.place 0 ([10, 51] ++ List.replicate 192 0), 194, rfl, known,
      by decide +kernel, by decide +kernel, by decide⟩
  exact (discloses_iff_orders null firstOrder).mpr ⟨receives, rfl, rfl⟩

end Server

end SunPush
