import SunPush.Library.Isolation
import SunPush.PushServer.Disclosure
import SunPush.PushServer.UserIndexes

/-!
# What a client sees of the push server

All clients share one user table, one memory pool of records and the connection
of the web server.  None of this shows: to each client the server looks like a
machine of its own, which keeps one record and reacts to the client's messages
and to the answers of the web server that name the client.  What other clients
do, in whatever order, changes nothing of what it is sent.
-/

namespace SunPush

open CInteger Noninterference

namespace Server

/-! ## The machine of one client -/

/-- The client is kicked, which nothing is sent about. -/
def kicked (info : UserInfomation) : UserInfomation :=
  { info with userStatus := .error }

/-- What becomes of the record of a client, and what the client is sent. -/
def attend (connectID : Int) (user : Option UserInfomation) :
    Callback → Option UserInfomation × Option Letter
  | .onAccept _ memory =>
      match user with
      | some info =>
          (some { info with userStatus := .connected }, some ⟨connectID, svrReadyCmd, 42⟩)
      | none =>
          if memory then
            (some { UserInfomation.construct with connectID, userStatus := .connected },
              some ⟨connectID, svrReadyCmd, 42⟩)
          else (none, none)
  | .onConnect _ => (user, none)
  | .onReadComplete (.acceptor _) _ msg length =>
      match user with
      | none => (none, none)
      | some info =>
          if msg.bufMsg 0 ≠ csLogon then (some info, none)
          else if msg.bufMsg 1 = 1 then
            if UInt16.ofNat (toUInt16 length) ≠ 46 then (some (kicked info), none)
            else
              (some { info with
                accountName :=
                  (strncpyS info.accountName 20 (fun i => msg.bufMsg (2 + i)) 32).1 },
                some ⟨connectID, userAuthAck, 3⟩)
          else if msg.bufMsg 1 = 51 ∧ UInt16.ofNat (toUInt16 length) ≠ 194 then
            (some (kicked info), none)
          else (some info, none)
  | .onReadComplete (.connector _) _ _ _ => (user, some ⟨connectID, testOrderAck, 3⟩)

def client (connectID : Int) :
    Component (Option UserInfomation) Occasion Memory (Int × List UInt8) :=
  fun user occasion stack =>
    let result := attend connectID user occasion.callback
    (result.1, result.2.toList.flatMap fun letter => letter.outputs occasion stack)

/-- The callback is called for the client, or for an answer that names it. -/
def Callback.concerns (connectID : Int) : Callback → Bool
  | .onAccept connIndex _ => connIndex = connectID
  | .onConnect _ => false
  | .onReadComplete (.acceptor _) connIndex _ _ => connIndex = connectID
  | .onReadComplete (.connector _) _ msg _ =>
      msg.bufMsg 0 = wsData ∧ msg.bufMsg 1 = 4 ∧
        toLong (LittleEndian.decode (msg.bufMsg.read 2 4)) = connectID

/-- The record of a connection. -/
def record (server : Server) (connectID : Int) : Option UserInfomation :=
  (server.users.findUserByConnectID connectID).map server.info

/-- What the server looks like to the client of a connection. -/
def share (connectID : Int) :
    Share Server Occasion Memory (Int × List UInt8) (Option UserInfomation) where
  part server := server.record connectID
  concerns occasion := occasion.callback.concerns connectID
  sees entry := entry.1 = connectID
  machine := client connectID

/-- The callback is not called for a connection of the web server with the client's id. -/
def Callback.Apart (connectID : Int) : Callback → Prop
  | .onAccept _ _ => True
  | .onConnect connIndex => connIndex ≠ connectID
  | .onReadComplete (.acceptor _) _ _ _ => True
  | .onReadComplete (.connector _) connIndex _ _ => connIndex ≠ connectID

/-- What holds of the server between callbacks while the client is a client. -/
structure Hosts (connectID : Int) (server : Server) : Prop where
  settled : server.Settled
  webServerConID : server.webServerConID ≠ connectID

/-! ## What a callback does to the record of a connection -/

section Records

variable {server : Server} (settled : server.Settled) (connectID : Int)

include settled

theorem record_modify {next : Server} {key : Int} {user : Nat}
    {change : UserInfomation → UserInfomation}
    (found : server.users.findUserByConnectID key = some user)
    (users : next.users = server.users.modify user change) :
    next.record connectID =
      if connectID = key then some (change (server.info user)) else server.record connectID := by
  have find : next.users.findUserByConnectID connectID =
      server.users.findUserByConnectID connectID := by
    rw [users]
    rfl
  have infos (other : Nat) : next.info other =
      Function.update server.users.poolPlayers user (change (server.info user)) other := by
    rw [info, users]
    rfl
  by_cases same : connectID = key
  · subst same
    rw [if_pos rfl, record, find, found, Option.map_some, infos, Function.update_self]
  · rw [if_neg same, record, record, find]
    cases other_found : server.users.findUserByConnectID connectID with
    | none => rfl
    | some other =>
        have different : other ≠ user := by
          intro here
          rw [here] at other_found
          have own := settled.connectID connectID user other_found
          exact same (own.symm.trans (settled.connectID key user found))
        rw [Option.map_some, Option.map_some, infos, Function.update_of_ne different]
        rfl

theorem record_entered {next : Server} {key : Int}
    (users : next.users = ((server.users.entered key).updateCounts.modify
      server.users.constructed fun info => { info with userStatus := .connected })) :
    next.record connectID =
      if connectID = key then
        some { UserInfomation.construct with connectID := key, userStatus := .connected }
      else server.record connectID := by
  have find : next.users.findUserByConnectID connectID =
      (server.users.entered key).findUserByConnectID connectID := by
    rw [users]
    rfl
  rw [UserInfoManager.find_entered] at find
  by_cases same : connectID = key
  · subst same
    have own : next.info server.users.constructed =
        { UserInfomation.construct with connectID, userStatus := .connected } := by
      have entered : (server.users.entered connectID).poolPlayers server.users.constructed =
          { UserInfomation.construct with connectID } := Function.update_self ..
      rw [info, users]
      refine (Function.update_self ..).trans ?_
      exact congrArg (fun info : UserInfomation => { info with userStatus := .connected }) entered
    rw [if_pos rfl] at find ⊢
    rw [record, find, Option.map_some, own]
  · rw [if_neg same] at find ⊢
    rw [record, record, find]
    cases other_found : server.users.findUserByConnectID connectID with
    | none => rfl
    | some other =>
        have older := Nat.ne_of_lt (settled.constructed connectID other other_found)
        have kept : next.info other = server.info other := by
          rw [info, users]
          refine (Function.update_of_ne older _ _).trans ?_
          exact Function.update_of_ne older _ _
        rw [Option.map_some, Option.map_some, kept]

theorem record_onAccept (connIndex : Int) (memory : Bool) :
    (server.onAccept connIndex memory).1.record connectID =
      if connectID = connIndex then
        (attend connectID (server.record connectID) (.onAccept connIndex memory)).1
      else server.record connectID := by
  cases found : server.users.findUserByConnectID connIndex with
  | some user =>
      have added : server.users.addUser connIndex 0 memory =
          (some user, server.users.updateCounts) := by
        simp [UserInfoManager.addUser, UserInfoManager.enterUser_of_find found memory]
      have counted : Settled { server with users := server.users.updateCounts } :=
        ⟨settled.serverType, settled.constructed, settled.connectID⟩
      have changed := @record_modify _ counted connectID
        ((Server.changeStatus { server with users := server.users.updateCounts } user .connected))
        connIndex user (fun info => { info with userStatus := .connected }) found rfl
      rw [onAccept, added]
      refine changed.trans ?_
      by_cases same : connectID = connIndex
      · subst same
        rw [if_pos rfl, if_pos rfl, record, found]
        rfl
      · rw [if_neg same, if_neg same]
        rfl
  | none =>
      cases memory with
      | true =>
          have added : server.users.addUser connIndex 0 true =
              (some server.users.constructed, (server.users.entered connIndex).updateCounts) := by
            simp [UserInfoManager.addUser, UserInfoManager.enterUser_of_absent found]
          rw [onAccept, added]
          refine (record_entered settled connectID rfl).trans ?_
          by_cases same : connectID = connIndex
          · subst same
            rw [if_pos rfl, if_pos rfl, record, found]
            rfl
          · rw [if_neg same, if_neg same]
      | false =>
          have refused : server.users.addUser connIndex 0 false = (none, server.users) := by
            rw [UserInfoManager.findUserByConnectID] at found
            simp [UserInfoManager.addUser, UserInfoManager.enterUser, found]
          rw [onAccept, refused]
          by_cases same : connectID = connIndex
          · subst same
            rw [if_pos rfl]
            have absent : server.record connectID = none := by
              rw [record, found]
              rfl
            rw [absent]
            rfl
          · rw [if_neg same]

theorem record_kickUser {key : Int} {user : Nat}
    (found : server.users.findUserByConnectID key = some user) :
    (server.kickUser user).1.record connectID =
      if connectID = key then some (kicked (server.info user)) else server.record connectID := by
  have changed : (server.kickUser user).1.users = server.users.modify user kicked := rfl
  exact record_modify settled connectID found changed

theorem record_onClientReadComplete (acceptor : Nat) (connIndex : Int) (msg : NetMsg)
    (length : Int) :
    (server.onClientReadComplete connIndex msg.bufMsg length).1.record connectID =
      if connectID = connIndex then
        (attend connectID (server.record connectID)
          (.onReadComplete (.acceptor acceptor) connIndex msg length)).1
      else server.record connectID := by
  rw [onClientReadComplete]
  cases found : server.users.findUserByConnectID connIndex with
  | none =>
      have unchanged : (if msg.bufMsg 0 ≠ csLogon then (server, [])
          else (server, [ApiCall.closeSocket connIndex])).1 = server := by
        split <;> rfl
      change (if msg.bufMsg 0 ≠ csLogon then (server, [])
          else (server, [ApiCall.closeSocket connIndex])).1.record connectID = _
      rw [unchanged]
      by_cases same : connectID = connIndex
      · subst same
        have absent : server.record connectID = none := by
          rw [record, found, Option.map_none]
        rw [absent, if_pos rfl]
        rfl
      · rw [if_neg same]
  | some user =>
      have own (same : connectID = connIndex) :
          server.record connectID = some (server.info user) := by
        rw [record, same, found, Option.map_some]
      by_cases category : msg.bufMsg 0 = csLogon
      · simp only [category, ne_eq, not_true_eq_false, if_false, parsePacketCS, true_and]
        by_cases login : msg.bufMsg 1 = 1
        · rw [if_pos login, handlerC2SUserAuthSyn]
          by_cases fits : UInt16.ofNat (toUInt16 length) = 46
          · rw [if_neg (not_not_intro fits)]
            let change (info : UserInfomation) : UserInfomation :=
              { info with
                accountName := (strncpyS (server.info user).accountName 20
                  (fun i => msg.bufMsg (2 + i)) 32).1 }
            refine (@record_modify _ settled connectID _ _ _ change found rfl).trans ?_
            split
            · next same =>
                rw [own same]
                simp only [attend, category, login, fits, ne_eq, not_true_eq_false, if_false,
                  if_true]
                rfl
            · rfl
          · rw [if_pos fits, record_kickUser settled connectID found]
            split
            · next same =>
                rw [own same]
                simp only [attend, category, login, fits, ne_eq, not_true_eq_false, if_false,
                  if_true, not_false_eq_true]
            · rfl
        · rw [if_neg login]
          by_cases order : msg.bufMsg 1 = 51
          · rw [if_pos order, handlerC2STestOrderSyn]
            by_cases fits : UInt16.ofNat (toUInt16 length) = 194
            · rw [if_neg (not_not_intro fits)]
              split
              · next same =>
                  rw [own same]
                  simp [attend, category, login, fits]
              · rfl
            · rw [if_pos fits, record_kickUser settled connectID found]
              split
              · next same =>
                  rw [own same]
                  simp [attend, category, order, fits]
              · rfl
          · rw [if_neg order]
            split
            · next same =>
                rw [own same]
                simp [attend, category, login, order]
            · rfl
      · rw [if_pos category]
        split
        · next same =>
            rw [own same]
            simp [attend, category]
        · rfl

end Records

/-! ## What a callback sends to a connection -/

/-- What a letter puts on the socket of a connection. -/
theorem filter_outputs (connectID : Int) (letter : Letter) (occasion : Occasion)
    (stack : Memory) :
    (letter.outputs occasion stack).filter (fun entry => entry.1 = connectID) =
      if letter.connectID = connectID then letter.outputs occasion stack else [] := by
  rw [Letter.outputs]
  split
  · by_cases same : letter.connectID = connectID <;> simp [same]
  · simp

theorem view_component (server : Server) (occasion : Occasion) (stack : Memory)
    (connectID : Int) :
    (component server occasion stack).2.filter (fun entry => entry.1 = connectID) =
      ((server.letter occasion.callback).filter fun letter =>
        letter.connectID = connectID).toList.flatMap fun letter =>
          letter.outputs occasion stack := by
  rw [component_snd]
  cases server.letter occasion.callback with
  | none => rfl
  | some letter =>
      rw [flatMap_outputs, filter_outputs]
      by_cases same : letter.connectID = connectID
      · rw [if_pos same, Option.filter_some_pos (by simpa using same), flatMap_outputs]
      · rw [if_neg same, Option.filter_some_neg (by simpa using same)]
        rfl

/-- A letter that is addressed to the connection, if it is sent. -/
def addressed (connectID : Int) (letter : Option Letter) : Option Letter :=
  letter.filter fun letter => letter.connectID = connectID

theorem addressed_self (connectID : Int) (object : Memory → Memory) (length : UInt16) :
    addressed connectID (some ⟨connectID, object, length⟩) = some ⟨connectID, object, length⟩ :=
  Option.filter_some_pos (by simp)

theorem addressed_other {connectID : Int} {letter : Letter}
    (different : letter.connectID ≠ connectID) : addressed connectID (some letter) = none :=
  Option.filter_some_neg (by simpa using different)

theorem addressed_none (connectID : Int) : addressed connectID none = none :=
  rfl

theorem addressed_onAccept (server : Server) (connectID connIndex : Int) (memory : Bool) :
    addressed connectID (server.letter (.onAccept connIndex memory)) =
      if connIndex = connectID then
        (attend connectID (server.record connectID) (.onAccept connIndex memory)).2
      else none := by
  rw [letter]
  by_cases same : connIndex = connectID
  · subst same
    rw [if_pos rfl]
    cases found : server.users.findUserByConnectID connIndex with
    | some user =>
        have added : (server.users.addUser connIndex 0 memory).1 = some user := by
          simp [UserInfoManager.addUser, UserInfoManager.enterUser_of_find found memory]
        rw [added, Option.map_some, addressed_self, record, found]
        rfl
    | none =>
        have own : server.record connIndex = none := by
          rw [record, found, Option.map_none]
        rw [own]
        cases memory with
        | true =>
            have added : (server.users.addUser connIndex 0 true).1 =
                some server.users.constructed := by
              simp [UserInfoManager.addUser, UserInfoManager.enterUser_of_absent found]
            rw [added, Option.map_some, addressed_self]
            rfl
        | false =>
            have refused : (server.users.addUser connIndex 0 false).1 = none := by
              rw [UserInfoManager.findUserByConnectID] at found
              simp [UserInfoManager.addUser, UserInfoManager.enterUser, found]
            rw [refused]
            rfl
  · rw [if_neg same]
    cases (server.users.addUser connIndex 0 memory).1 with
    | none => rfl
    | some user => exact addressed_other same

theorem addressed_request {server : Server} {connectID : Int} (hosts : Hosts connectID server)
    (acceptor : Nat) (connIndex : Int) (msg : NetMsg) (length : Int) :
    addressed connectID (server.letter (.onReadComplete (.acceptor acceptor) connIndex msg
        length)) =
      if connIndex = connectID then
        (attend connectID (server.record connectID)
          (.onReadComplete (.acceptor acceptor) connIndex msg length)).2
      else none := by
  have unkicked (user : Nat) : server.kickLetter user = none := by
    rw [kickLetter, hosts.settled.serverType]
  cases found : server.users.findUserByConnectID connIndex with
  | none =>
      have unsent : server.letter (.onReadComplete (.acceptor acceptor) connIndex msg length) =
          none := by
        rw [letter, found]
        split <;> rfl
      rw [unsent, addressed_none]
      by_cases same : connIndex = connectID
      · subst same
        have own : server.record connIndex = none := by
          rw [record, found, Option.map_none]
        rw [if_pos rfl, own]
        rfl
      · rw [if_neg same]
  | some user =>
      have own := hosts.settled.connectID connIndex user found
      have known (same : connIndex = connectID) :
          server.record connectID = some (server.info user) := by
        rw [record, ← same, found, Option.map_some]
      simp only [letter, found, unkicked, Option.bind_some]
      by_cases category : msg.bufMsg 0 = csLogon
      · rw [if_neg (not_not_intro category)]
        by_cases login : msg.bufMsg 1 = 1
        · rw [if_pos login]
          by_cases fits : UInt16.ofNat (toUInt16 length) = 46
          · rw [if_neg (not_not_intro fits), own]
            by_cases same : connIndex = connectID
            · rw [if_pos same, known same, same, addressed_self]
              simp [attend, category, login, fits]
            · rw [if_neg same, addressed_other same]
          · rw [if_pos fits, addressed_none]
            split
            · next same =>
                rw [known same]
                simp [attend, category, login, fits]
            · rfl
        · rw [if_neg login]
          -- an order goes to the web server
          have away : addressed connectID (if msg.bufMsg 1 = 51 then
              if UInt16.ofNat (toUInt16 length) ≠ 194 then none
              else some ⟨server.webServerConID,
                fun stack => testOrderSyn stack (server.info user).connectID msg.bufMsg, 198⟩
              else none) = none := by
            split
            · split
              · rfl
              · exact addressed_other hosts.webServerConID
            · rfl
          rw [away]
          split
          · next same =>
              rw [known same]
              simp only [attend, category, login, ne_eq, not_true_eq_false, if_false]
              split <;> rfl
          · rfl
      · rw [if_pos category, addressed_none]
        split
        · next same =>
            rw [known same]
            simp [attend, category]
        · rfl

theorem addressed_answer {server : Server} {connectID connIndex : Int}
    (different : connIndex ≠ connectID) (connector : Nat) (msg : NetMsg) (length : Int) :
    addressed connectID (server.letter (.onReadComplete (.connector connector) connIndex msg
        length)) =
      if msg.bufMsg 0 = wsData ∧ msg.bufMsg 1 = 4 ∧
          toLong (LittleEndian.decode (msg.bufMsg.read 2 4)) = connectID then
        some ⟨connectID, testOrderAck, 3⟩
      else none := by
  rw [letter]
  generalize toLong (LittleEndian.decode (msg.bufMsg.read 2 4)) = addressee
  by_cases category : msg.bufMsg 0 = wsData
  · rw [if_neg (not_not_intro category)]
    by_cases connected : msg.bufMsg 1 = 0
    · have other : msg.bufMsg 1 ≠ 4 := by
        rw [connected]
        decide
      rw [if_pos connected, addressed_other different, if_neg fun all => other all.2.1]
    · rw [if_neg connected]
      by_cases answer : msg.bufMsg 1 = 4
      · rw [if_pos answer]
        by_cases named : addressee = connectID
        · rw [named, addressed_self, if_pos ⟨category, answer, rfl⟩]
        · rw [addressed_other named, if_neg fun all => named all.2.2]
      · rw [if_neg answer, if_neg fun all => answer all.2.1]
        rfl
  · rw [if_pos category, if_neg fun all => category all.1]
    rfl

/-! ## The server serves every client -/

theorem Hosts.after {connectID : Int} {server : Server} (hosts : Hosts connectID server)
    {occasion : Occasion} (apart : occasion.callback.Apart connectID) :
    Hosts connectID (server.after occasion) where
  settled := hosts.settled.after occasion
  webServerConID := by
    rw [Server.after]
    cases callback : occasion.callback with
    | onAccept connIndex memory =>
        simp only [Callback.run, onAccept]
        split <;> exact hosts.webServerConID
    | onConnect connIndex =>
        rw [callback] at apart
        exact apart
    | onReadComplete owner connIndex msg length =>
        cases owner with
        | acceptor acceptor =>
            simp only [Callback.run, callbacks, onClientReadComplete, parsePacketCS,
              handlerC2SUserAuthSyn, handlerC2STestOrderSyn]
            repeat' split
            all_goals exact hosts.webServerConID
        | connector connector =>
            simp only [Callback.run, callbacks, onWebReadComplete, parsePacketWS,
              handlerW2SWsConnectedCmd, handlerW2SAuthResultAck, handlerW2SNewOrderBrdCmd]
            repeat' split
            all_goals exact hosts.webServerConID

theorem record_after {server : Server} (settled : server.Settled) (occasion : Occasion)
    (connectID : Int) :
    (server.after occasion).record connectID =
      if occasion.callback.concerns connectID then
        (attend connectID (server.record connectID) occasion.callback).1
      else server.record connectID := by
  rw [after]
  cases occasion.callback with
  | onAccept connIndex memory =>
      rw [Callback.run, record_onAccept settled]
      simp only [Callback.concerns, decide_eq_true_eq, @eq_comm _ connIndex connectID]
  | onConnect connIndex => rfl
  | onReadComplete owner connIndex msg length =>
      cases owner with
      | acceptor acceptor =>
          refine (record_onClientReadComplete settled connectID acceptor connIndex msg
            length).trans ?_
          simp only [Callback.concerns, decide_eq_true_eq, @eq_comm _ connIndex connectID]
      | connector connector =>
          have unchanged : (Callback.run server (.onReadComplete (.connector connector) connIndex
              msg length)).1 = server := by
            simp only [Callback.run, callbacks, onWebReadComplete, parsePacketWS,
              handlerW2SWsConnectedCmd, handlerW2SAuthResultAck, handlerW2SNewOrderBrdCmd]
            repeat' split
            all_goals rfl
          rw [unchanged]
          exact (ite_self _).symm

theorem addressed_letter {server : Server} {connectID : Int} (hosts : Hosts connectID server)
    {callback : Callback} (apart : callback.Apart connectID) :
    addressed connectID (server.letter callback) =
      if callback.concerns connectID then
        (attend connectID (server.record connectID) callback).2
      else none := by
  cases callback with
  | onAccept connIndex memory =>
      rw [addressed_onAccept]
      simp only [Callback.concerns, decide_eq_true_eq]
  | onConnect connIndex => rfl
  | onReadComplete owner connIndex msg length =>
      cases owner with
      | acceptor acceptor =>
          rw [addressed_request hosts]
          simp only [Callback.concerns, decide_eq_true_eq]
      | connector connector =>
          rw [addressed_answer apart]
          simp only [Callback.concerns, decide_eq_true_eq]
          rfl

theorem serves (connectID : Int) :
    component.Serves (share connectID) (Hosts connectID)
      fun occasion => occasion.callback.Apart connectID where
  known := by
    intro server occasion stack hosts apart
    rw [component_fst]
    exact hosts.after apart
  concerned := by
    intro server occasion stack hosts apart concerns
    have letters := (addressed_letter hosts apart).trans (if_pos concerns)
    constructor
    · rw [component_fst]
      exact (record_after hosts.settled occasion connectID).trans (if_pos concerns)
    · refine (view_component server occasion stack connectID).trans ?_
      exact congrArg (fun letter : Option Letter =>
        letter.toList.flatMap fun letter => letter.outputs occasion stack) letters
  unconcerned := by
    intro server occasion stack hosts apart unconcerns
    have letters := (addressed_letter hosts apart).trans (if_neg unconcerns)
    constructor
    · rw [component_fst]
      exact (record_after hosts.settled occasion connectID).trans (if_neg unconcerns)
    · refine (view_component server occasion stack connectID).trans ?_
      exact congrArg (fun letter : Option Letter =>
        letter.toList.flatMap fun letter => letter.outputs occasion stack) letters

theorem Initial.hosts {server : Server} (initial : server.Initial) {connectID : Int}
    (different : connectID ≠ 0) : Hosts connectID server where
  settled := initial.settled
  webServerConID := by
    rw [initial.webServerConID]
    exact different.symm

/-- The web server connects, clients 2 and 3 are accepted, and client 2 places an order. -/
def traffic : List (Occasion × Memory) :=
  (beforeOrder ++ [⟨.onAccept 3 true, false, fun _ => true⟩, firstOrder]).map fun occasion =>
    (occasion, .zero)

end Server

end SunPush
