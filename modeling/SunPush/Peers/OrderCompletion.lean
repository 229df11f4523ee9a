import SunPush.Peers.Authentication
import SunPush.Peers.Deliveries

/-!
# Every order is acknowledged in the end

While the connection of a client and that of the web server stay open, an order
of the client is never lost on the way, so once everything is delivered the
client has been sent exactly one acknowledgement for each of its orders.
-/

namespace SunPush

open CInteger LittleEndian Transition

namespace OrderService

/-! ## Steps that lose no order -/

/-- The connection that orders are forwarded to is open, and the web server's. -/
def Serves (state : State) : Prop :=
  state.isOpen state.server.webServerConID .webServer

instance (state : State) : Decidable (Serves state) :=
  inferInstanceAs (Decidable (_ = _))

/-- The step loses no order of the connection: its user is entered, neither its connection nor an
open one of the web server is closed, no second one of the web server is opened, the web server is
connected when the order arrives, and no order of anyone ends the script. -/
def KeepsOrders (connectID : Int) (state : State) : Label → Prop
  | .accept accepted memory _ => accepted = connectID → memory = true
  | .connect _ _ => ¬Serves state
  | .close closed => closed ≠ connectID ∧ ¬state.isOpen closed .webServer
  | .serverReceivesRequest sender _ _ =>
      ∀ taken ∈ Channels.take sender state.fromClients, isOrder taken.1 →
        taken.1.getD 2 0 ≠ 0x30 ∧ (sender = connectID → Serves state)
  | .webServerEnds => False
  | _ => True

instance (connectID : Int) (state : State) : DecidablePred (KeepsOrders connectID state)
  | .accept _ _ _ => inferInstanceAs (Decidable (_ → _))
  | .connect _ _ => inferInstanceAs (Decidable (¬_))
  | .close _ => inferInstanceAs (Decidable (_ ∧ _))
  | .clientSends _ _ => isTrue trivial
  | .clientReceives _ => isTrue trivial
  | .serverReceivesRequest sender _ _ =>
      inferInstanceAs (Decidable (∀ taken ∈ Channels.take sender state.fromClients, _))
  | .serverReceivesAnswer _ _ _ => isTrue trivial
  | .webServerAccepts _ => isTrue trivial
  | .webServerReceives => isTrue trivial
  | .webServerEnds => isFalse id

/-- The invariant.  All orders of the connection but `owed` have been acknowledged, answered or
forwarded, and what is on its way will arrive. -/
structure Kept (connectID : Int) (state : State) (owed : Nat) : Prop where
  counted : orders state connectID ≤
    acks state connectID + answered state connectID + forwarded state connectID + owed
  client : IsPeer state connectID .client →
    state.isOpen connectID .client ∧ state.server.users.Has connectID
  webServer : ∀ other, state.isOpen other .webServer → other = state.server.webServerConID
  forwarded : ∀ entry ∈ state.fromServer, isForwarded connectID entry.2 →
    entry.1 = state.server.webServerConID ∧ Serves state
  harmless : ∀ entry ∈ state.fromServer, IsPeer state entry.1 .webServer → Harmless entry.2
  answered : ∀ entry ∈ state.fromWebServer, isAnswer connectID entry.2 →
    entry.1 = state.server.webServerConID ∧ Serves state
  script : ∀ other socket, state.script = .serving other socket →
    other = state.server.webServerConID ∧ Serves state
  running : state.script ≠ .ended

namespace Kept

variable {connectID : Int} {state : State} {owed left : Nat}

/-- One message of the push server pays off an order by forwarding or acknowledging it. -/
theorem transmit (kept : Kept connectID state owed) (server : Server) (target : Int)
    (message : Memory) {length : UInt16} (fits : length.toNat ≤ maxMsgSize)
    (routed : isForwarded connectID (frameOf message length fun i => server.stack i) →
      target = state.server.webServerConID ∧ Serves state)
    (harmless : IsPeer state target .webServer →
      Harmless (frameOf message length fun i => server.stack i))
    (paid : owed ≤ left +
      if (state.lines target).any Line.isOpen ∧
        (target = connectID ∧ isAck (frameOf message length fun i => server.stack i) ∨
          isForwarded connectID (frameOf message length fun i => server.stack i)) then 1 else 0) :
    Kept connectID (state.transmit (server.send target message length)) left := by
  rw [transmit_send state server target message fits]
  generalize frameOf message length (fun i => server.stack i) = frame at routed harmless paid
  cases found : (state.lines target).any Line.isOpen with
  | false =>
      rw [found] at paid
      simp only [Bool.false_eq_true, false_and, if_false, Nat.add_zero] at paid
      exact { kept with counted := kept.counted.trans (Nat.add_le_add_left paid _) }
  | true =>
      rw [found] at paid
      simp only [true_and] at paid
      exact
        { kept with
          counted := by
            have before := kept.counted
            have acks_eq : (state.sent ++ [(target, frame)]).countP
                (fun entry => entry.1 = connectID ∧ isAck entry.2) =
                acks state connectID + if target = connectID ∧ isAck frame then 1 else 0 := by
              simp only [List.countP_append, List.countP_singleton, decide_eq_true_eq]
              rfl
            have forwarded_eq : (state.fromServer ++ [(target, frame)]).countP
                (fun entry => isForwarded connectID entry.2) =
                OrderService.forwarded state connectID +
                  if isForwarded connectID frame then 1 else 0 := by
              simp only [List.countP_append, List.countP_singleton]
              rfl
            simp only [if_true]
            change orders state connectID ≤ List.countP _ (state.sent ++ _) +
              OrderService.answered state connectID + List.countP _ (state.fromServer ++ _) + left
            rw [acks_eq, forwarded_eq]
            split at paid
            · rename_i pays
              rcases pays with pays | pays
              · rw [if_pos pays]
                omega
              · rw [if_pos pays]
                omega
            · omega
          forwarded := by
            intro entry entry_mem
            simp only [if_true, List.mem_append, List.mem_singleton] at entry_mem
            rcases entry_mem with entry_mem | rfl
            · exact kept.forwarded entry entry_mem
            · exact routed
          harmless := by
            intro entry entry_mem
            simp only [if_true, List.mem_append, List.mem_singleton] at entry_mem
            rcases entry_mem with entry_mem | rfl
            · exact kept.harmless entry entry_mem
            · exact harmless }

/-- A message of the category of clients, sent to a client, pays nothing off. -/
theorem transmit_toClient (kept : Kept connectID state owed) (server : Server) {target : Int}
    {message : Memory} {length : UInt16} (fits : length.toNat ≤ maxMsgSize)
    (client : IsPeer state target .client)
    (category : (frameOf message length fun i => server.stack i).getD 4 0 = csLogon) :
    Kept connectID (state.transmit (server.send target message length)) owed := by
  apply kept.transmit server target message fits
  · intro forwarded
    simp only [isForwarded, category, decide_eq_true_eq] at forwarded
    exact absurd forwarded.1 (by decide)
  · intro webServer
    rw [IsPeer] at client webServer
    rw [client] at webServer
    contradiction
  · exact Nat.le_add_right _ _

theorem setServer (kept : Kept connectID state owed) {server : Server}
    (same : server.webServerConID = state.server.webServerConID)
    (has : state.server.users.Has connectID → server.users.Has connectID) :
    Kept connectID { state with server := server } owed :=
  { kept with
    client := fun client => ⟨(kept.client client).1, has (kept.client client).2⟩
    webServer := fun other opened => (kept.webServer other opened).trans same.symm
    forwarded := by
      intro entry entry_mem forwarded
      have routed := kept.forwarded entry entry_mem forwarded
      simp only [Serves, same] at routed ⊢
      exact routed
    answered := by
      intro entry entry_mem answer
      have routed := kept.answered entry entry_mem answer
      simp only [Serves, same] at routed ⊢
      exact routed
    script := by
      intro other socket serving
      have routed := kept.script other socket serving
      simp only [Serves, same] at routed ⊢
      exact routed }

theorem setUsers (kept : Kept connectID state owed) {server : Server}
    (same : server.webServerConID = state.server.webServerConID)
    (keys : SameKeys state.server.users server.users) :
    Kept connectID { state with server := server } owed := by
  apply kept.setServer same
  intro has
  rw [UserInfoManager.has_iff, keys.find, ← UserInfoManager.has_iff]
  exact has

end Kept

/-! ## The callbacks lose no order -/

namespace Kept

variable {connectID : Int} {state : State} {owed : Nat}

section Request

variable (kept : Kept connectID state owed) {spare : Int → Nat} (accounted : Accounted state spare)
  {sender : Int} {user : Nat}
  (found : state.server.users.findUserByConnectID sender = some user)

include kept accounted found

theorem kickUser : Kept connectID (state.finish (state.server.kickUser user)) owed := by
  have keys := accounted.users sender user found
  have same : SameKeys state.server.users (state.server.changeStatus user .error).users :=
    @sameKeys_modify _ user (fun info => { info with userStatus := .error }) fun _ => rfl
  have changed : Kept connectID { state with server := state.server.changeStatus user .error }
      owed := kept.setUsers rfl same
  have own : ((state.server.changeStatus user .error).info user).connectID = sender :=
    (same.connectID user).trans keys.2.1
  have announced : Kept connectID (State.transmit
      { state with server := state.server.changeStatus user .error }
      ((state.server.changeStatus user .error).sendToClient user (kickUserCmd state.server.stack)
        4)) owed := by
    rw [Server.sendToClient, own]
    exact changed.transmit_toClient _ (by decide) keys.2.2.2 rfl
  -- the delayed close changes nothing here
  rw [Server.kickUser, State.finish, List.foldl_append]
  change Kept connectID (List.foldl State.transmit
    { state with server := state.server.changeStatus user .error } _) owed
  cases kind : (state.server.changeStatus user .error).serverType with
  | push => exact announced
  | null => exact changed
  | agent => exact changed
  | data => exact changed

theorem userAuthSyn (msg : Memory) (size : UInt16) :
    Kept connectID (state.finish (state.server.handlerC2SUserAuthSyn user msg size)) owed := by
  rw [Server.handlerC2SUserAuthSyn]
  split
  · exact kept.kickUser accounted found
  · have keys := accounted.users sender user found
    let name := strncpyS (state.server.info user).accountName 20 (fun i => msg (2 + i)) 32
    have same := @sameKeys_modify state.server.users user
      (fun info => { info with accountName := name.1 }) fun _ => rfl
    let server := { state.server with
      users := state.server.users.modify user fun info => { info with accountName := name.1 }
      invalidParameter := state.server.invalidParameter || name.2 }
    have changed : Kept connectID { state with server := server } owed := kept.setUsers rfl same
    have own : (server.info user).connectID = sender := (same.connectID user).trans keys.2.1
    change Kept connectID (State.transmit { state with server := server }
      (server.sendToClient user (userAuthAck server.stack) 3)) owed
    rw [Server.sendToClient, own]
    exact changed.transmit_toClient _ (by decide) keys.2.2.2 rfl

/-- A well-sized order is forwarded, which pays it off if it is the connection's. -/
theorem testOrderSyn (msg : Memory) {size : UInt16} (mild : size = 194 → msg 2 ≠ 0x30)
    (serves : size = 194 → sender = connectID → Serves state)
    (owes : owed ≤ if size = 194 ∧ sender = connectID then 1 else 0) :
    Kept connectID (state.finish (state.server.handlerC2STestOrderSyn user msg size)) 0 := by
  rw [Server.handlerC2STestOrderSyn]
  by_cases fits : size = 194
  · have keys := accounted.users sender user found
    rw [if_neg (not_not_intro fits)]
    have names : isForwarded connectID (frameOf (SunPush.testOrderSyn state.server.stack
        (state.server.info user).connectID msg) 198 fun i => state.server.stack i) ↔
        sender = connectID := by
      rw [isForwarded_order, iUserGID_testOrderSyn]
      change toLong (state.server.users.poolPlayers user).connectID = connectID ↔ _
      rw [keys.2.1, keys.2.2.1]
    change Kept connectID (state.transmit (state.server.send state.server.webServerConID
      (SunPush.testOrderSyn state.server.stack (state.server.info user).connectID msg) 198)) 0
    apply kept.transmit _ _ _ (by decide)
    · intro forwarded
      exact ⟨rfl, serves fits (names.mp forwarded)⟩
    · intro _ _
      exact mild fits
    · by_cases same : sender = connectID
      · have opened := serves fits same
        simp only [Serves, State.isOpen, decide_eq_true_eq] at opened
        simpa [opened, names.mpr same, fits, same] using owes
      · rw [if_neg fun both => same both.2] at owes
        exact owes.trans (Nat.zero_le _)
  · rw [if_pos fits]
    rw [if_neg (fun both => fits both.1), Nat.le_zero] at owes
    subst owes
    exact kept.kickUser accounted found

end Request

theorem onClientReadComplete (kept : Kept connectID state owed) {spare : Int → Nat}
    (accounted : Accounted state spare) {sender : Int} {msg : Memory} {length : Int}
    (mild : msg 0 = csLogon → msg 1 = 51 → UInt16.ofNat (toUInt16 length) = 194 →
      msg 2 ≠ 0x30 ∧ (sender = connectID → Serves state))
    (owes : owed ≤ if sender = connectID ∧ msg 0 = csLogon ∧ msg 1 = 51 ∧
      UInt16.ofNat (toUInt16 length) = 194 then 1 else 0)
    (has : sender = connectID → state.server.users.Has connectID) :
    Kept connectID (state.finish (state.server.onClientReadComplete sender msg length)) 0 := by
  have nothing (other : ¬(sender = connectID ∧ msg 0 = csLogon ∧ msg 1 = 51 ∧
      UInt16.ofNat (toUInt16 length) = 194)) : owed = 0 := by
    rwa [if_neg other, Nat.le_zero] at owes
  rw [Server.onClientReadComplete]
  by_cases category : msg 0 = csLogon
  · rw [if_neg (not_not_intro category)]
    cases found : state.server.users.findUserByConnectID sender with
    | none =>
        have absent : sender ≠ connectID := by
          intro same
          rcases UserInfoManager.has_iff.mp (has same) with ⟨user, user_eq⟩
          rw [← same, found] at user_eq
          contradiction
        rw [← nothing fun order => absent order.1]
        exact kept
    | some user =>
        simp only [Server.parsePacketCS, category, true_and]
        by_cases login : msg 1 = 1
        · rw [if_pos login]
          rw [← nothing fun order => absurd (login.symm.trans order.2.2.1) (by decide)]
          exact kept.userAuthSyn accounted found msg _
        · by_cases order : msg 1 = 51
          · rw [if_neg login, if_pos order]
            apply kept.testOrderSyn accounted found msg
            · intro fits
              exact (mild category order fits).1
            · intro fits
              exact (mild category order fits).2
            · simpa [category, order, and_comm] using owes
          · rw [if_neg login, if_neg order]
            rw [← nothing fun other => order other.2.2.1]
            exact kept
  · rw [if_pos category]
    rw [← nothing fun order => category order.2.1]
    exact kept

theorem onWebReadComplete (kept : Kept connectID state owed) (connIndex : Int) (rest : Memory)
    {frame : List UInt8} (written : FromWebServer frame)
    (owes : owed ≤ if isAnswer connectID frame then 1 else 0)
    (opened : isAnswer connectID frame → state.isOpen connectID .client) :
    Kept connectID (state.finish (state.server.onWebReadComplete connIndex
      (buffer rest (frame.drop 4)))) 0 := by
  cases written with
  | connected =>
      change Kept connectID (state.transmit (state.server.send connIndex
        (pushSvrAuthSyn state.server.stack) 34)) 0
      have no_order : isForwarded connectID (frameOf (pushSvrAuthSyn state.server.stack) 34
          fun i => state.server.stack i) = false := rfl
      apply kept.transmit _ _ _ (by decide)
      · intro forwarded
        rw [no_order] at forwarded
        exact absurd forwarded Bool.false_ne_true
      · intro _
        exact harmless_of_protocol rfl (show (1 : UInt8) ≠ 52 by decide)
      · exact owes.trans (Nat.zero_le _)
  | result byResult =>
      have nothing : owed = 0 := Nat.le_zero.mp owes
      subst nothing
      exact kept
  | answer syn =>
      have received : (buffer rest ((TestOrderSyn.answer syn).drop 4)).read 0 10 =
          (TestOrderSyn.answer syn).drop 4 := Memory.read_write_self ..
      rw [(TestOrderSyn.answered syn).iUsrConID _ _ _ received]
      change Kept connectID (state.transmit (state.server.send (TestOrderSyn.iUserGID syn)
        (testOrderAck state.server.stack) 3)) 0
      have no_order : isForwarded connectID (frameOf (testOrderAck state.server.stack) 3
          fun i => state.server.stack i) = false := rfl
      apply kept.transmit _ _ _ (by decide)
      · intro forwarded
        rw [no_order] at forwarded
        exact absurd forwarded Bool.false_ne_true
      · intro _
        exact harmless_of_protocol rfl (show (54 : UInt8) ≠ 52 by decide)
      · by_cases answer : isAnswer connectID (TestOrderSyn.answer syn)
        · have named := (isAnswer_answer syn connectID).mp answer
          have line := opened answer
          rw [State.isOpen, decide_eq_true_eq] at line
          rw [if_pos answer] at owes
          have found : (state.lines (TestOrderSyn.iUserGID syn)).any Line.isOpen := by
            rw [named, line, Option.any_some]
          rw [if_pos ⟨found, .inl ⟨named, rfl⟩⟩]
          exact owes
        · rw [if_neg answer] at owes
          exact owes.trans (Nat.zero_le _)

end Kept

/-! ## The steps lose no order -/

theorem isOpen_iff {state : State} {connectID : Int} {peer : Peer} :
    state.isOpen connectID peer = true ↔ state.lines connectID = some ⟨peer, true⟩ := by
  rw [State.isOpen, decide_eq_true_eq]

namespace Kept

variable {connectID : Int} {state : State} {owed left : Nat}

theorem withStack (kept : Kept connectID state owed) (stack : Memory) :
    Kept connectID (state.withStack stack) owed :=
  { kept with }

/-- The line that is added or closed is not the one orders are forwarded to. -/
theorem setLine (kept : Kept connectID state owed) {other : Int} {line : Line}
    (away : Serves state → other ≠ state.server.webServerConID)
    (closed : line ≠ ⟨.webServer, true⟩)
    (peer : ∀ old, state.lines other = some old → old.peer = line.peer)
    (unused : state.lines other = none → ∀ entry ∈ state.fromServer, entry.1 ≠ other)
    (entered : other = connectID → line.peer = .client →
      line = ⟨.client, true⟩ ∧ state.server.users.Has connectID) :
    Kept connectID (state.setLine other line) owed := by
  have serves (opened : Serves state) : Serves (state.setLine other line) := by
    have different := away opened
    rw [Serves, isOpen_iff] at opened ⊢
    exact (Function.update_of_ne different.symm _ _).trans opened
  exact
    { kept with
      client := by
        intro is_client
        by_cases here : connectID = other
        · subst here
          have own : (state.setLine connectID line).lines connectID = some line :=
            Function.update_self ..
          rw [IsPeer, own, Option.map_some, Option.some.injEq] at is_client
          have known := entered rfl is_client
          exact ⟨isOpen_iff.mpr (own.trans (congrArg some known.1)), known.2⟩
        · have same : (state.setLine other line).lines connectID = state.lines connectID :=
            Function.update_of_ne here _ _
          rw [IsPeer, same] at is_client
          have known := kept.client is_client
          exact ⟨isOpen_iff.mpr (same.trans (isOpen_iff.mp known.1)), known.2⟩
      webServer := by
        intro key opened
        have found := isOpen_iff.mp opened
        by_cases here : key = other
        · subst here
          have own : (state.setLine key line).lines key = some line := Function.update_self ..
          rw [own, Option.some.injEq] at found
          exact absurd found closed
        · have same : (state.setLine other line).lines key = state.lines key :=
            Function.update_of_ne here _ _
          exact kept.webServer key (isOpen_iff.mpr (same.symm.trans found))
      forwarded := fun entry entry_mem order =>
        (kept.forwarded entry entry_mem order).imp_right serves
      harmless := by
        intro entry entry_mem is_web
        apply kept.harmless entry entry_mem
        simp only [IsPeer, State.setLine] at is_web ⊢
        by_cases here : entry.1 = other
        · cases old : state.lines other with
          | none => exact absurd here (unused old entry entry_mem)
          | some before =>
              rw [here, Function.update_self] at is_web
              rw [here, old, Option.map_some, peer before old]
              exact is_web
        · rwa [Function.update_of_ne here] at is_web
      answered := fun entry entry_mem answer =>
        (kept.answered entry entry_mem answer).imp_right serves
      script := fun key socket serving => (kept.script key socket serving).imp_right serves }

/-- The line of an accepted client, under a server that has entered its user. -/
theorem setClient (kept : Kept connectID state owed) {spare : Int → Nat}
    (accounted : Accounted state spare) {accepted : Int} (unused : state.lines accepted = none)
    {server : Server} (same : server.webServerConID = state.server.webServerConID)
    (keeps : state.server.users.Has connectID → server.users.Has connectID)
    (enters : accepted = connectID → server.users.Has connectID) :
    Kept connectID (State.setLine { state with server := server } accepted ⟨.client, true⟩)
      owed := by
  apply (kept.setServer same keeps).setLine
  · intro opened here
    have line := isOpen_iff.mp opened
    rw [← here] at line
    exact absurd (line.symm.trans unused) nofun
  · exact nofun
  · intro old old_eq
    exact absurd (old_eq.symm.trans unused) nofun
  · intro _ entry entry_mem here
    rcases accounted.fromServer entry entry_mem with client | ⟨web, _⟩
    · simp [IsPeer, here, unused] at client
    · simp [IsPeer, here, unused] at web
  · intro here _
    exact ⟨rfl, enters here⟩

theorem accept (kept : Kept connectID state owed) {spare : Int → Nat}
    (accounted : Accounted state spare) {accepted : Int} (unused : state.lines accepted = none)
    {memory : Bool} (admitted : accepted = connectID → memory = true) :
    Kept connectID ((state.setLine accepted ⟨.client, true⟩).finish
      (state.server.onAccept accepted memory)) owed := by
  have absent : state.server.users.findUserByConnectID accepted = none := by
    cases found : state.server.users.findUserByConnectID accepted with
    | none => rfl
    | some user =>
        have known := (accounted.users accepted user found).2.2.2
        simp [IsPeer, unused] at known
  cases memory with
  | false =>
      have refused : state.server.users.addUser accepted 0 false =
          (none, state.server.users) := by
        rw [UserInfoManager.findUserByConnectID] at absent
        simp [UserInfoManager.addUser, UserInfoManager.enterUser, absent]
      rw [Server.onAccept, refused]
      refine kept.setClient accounted unused rfl id ?_
      intro here
      exact absurd (admitted here) (by decide)
  | true =>
      have added : state.server.users.addUser accepted 0 true =
          (some state.server.users.constructed,
            (state.server.users.entered accepted).updateCounts) := by
        simp [UserInfoManager.addUser, UserInfoManager.enterUser_of_absent absent]
      rw [Server.onAccept, added]
      let server := Server.changeStatus { state.server with
        users := (state.server.users.entered accepted).updateCounts }
          state.server.users.constructed .connected
      have find (key : Int) : server.users.findUserByConnectID key =
          if key = accepted then some state.server.users.constructed
          else state.server.users.findUserByConnectID key :=
        state.server.users.find_entered accepted key
      have changed : Kept connectID
          (State.setLine { state with server := server } accepted ⟨.client, true⟩) owed := by
        have same : server.webServerConID = state.server.webServerConID := rfl
        apply kept.setClient accounted unused same
        · intro has
          rcases UserInfoManager.has_iff.mp has with ⟨user, found⟩
          rw [UserInfoManager.has_iff]
          simp only [find]
          split
          · exact ⟨_, rfl⟩
          · exact ⟨user, found⟩
        · intro here
          rw [UserInfoManager.has_iff]
          simp only [find, here, if_true]
          exact ⟨_, rfl⟩
      have client : IsPeer (State.setLine { state with server := server } accepted
          ⟨.client, true⟩) accepted .client := by
        change (Function.update state.lines accepted _ accepted).map Line.peer = _
        rw [Function.update_self, Option.map_some]
      exact changed.transmit_toClient server (by decide) client rfl

/-- The web server's connection is opened when none is, so no order is on its way. -/
theorem connect (kept : Kept connectID state owed) {spare : Int → Nat}
    (accounted : Accounted state spare) {connected : Int}
    (unused : state.lines connected = none) (idle : ¬Serves state) (succeeds : Bool) :
    Kept connectID ((state.setLine connected ⟨.webServer, succeeds⟩).finish
      (state.server.onConnect connected)) owed :=
  { kept with
    client := by
      intro is_client
      by_cases here : connectID = connected
      · subst here
        have own : (state.setLine connectID ⟨.webServer, succeeds⟩).lines connectID =
            some ⟨.webServer, succeeds⟩ := Function.update_self ..
        exact absurd ((congrArg (Option.map Line.peer) own).symm.trans is_client) nofun
      · have same : (state.setLine connected ⟨.webServer, succeeds⟩).lines connectID =
            state.lines connectID := Function.update_of_ne here _ _
        have known := kept.client ((congrArg (Option.map Line.peer) same).symm.trans is_client)
        exact ⟨isOpen_iff.mpr (same.trans (isOpen_iff.mp known.1)), known.2⟩
    webServer := by
      intro key opened
      by_cases here : key = connected
      · exact here
      · have same : (state.setLine connected ⟨.webServer, succeeds⟩).lines key =
            state.lines key := Function.update_of_ne here _ _
        have before : state.isOpen key .webServer :=
          isOpen_iff.mpr (same.symm.trans (isOpen_iff.mp opened))
        rw [kept.webServer key before] at before
        exact absurd before idle
    forwarded := fun entry entry_mem order =>
      absurd (kept.forwarded entry entry_mem order).2 idle
    harmless := by
      intro entry entry_mem is_web
      apply kept.harmless entry entry_mem
      have different : entry.1 ≠ connected := by
        intro here
        rcases accounted.fromServer entry entry_mem with client | ⟨web, _⟩
        · simp [IsPeer, here, unused] at client
        · simp [IsPeer, here, unused] at web
      have same : (state.setLine connected ⟨.webServer, succeeds⟩).lines entry.1 =
          state.lines entry.1 := Function.update_of_ne different _ _
      exact (congrArg (Option.map Line.peer) same).symm.trans is_web
    answered := fun entry entry_mem answer =>
      absurd (kept.answered entry entry_mem answer).2 idle
    script := fun key socket serving => absurd (kept.script key socket serving).2 idle }

/-- A frame taken off a channel of the push server is owed if it is an order. -/
theorem takeFromServer (kept : Kept connectID state owed) {target : Int} {frame : List UInt8}
    {rest : List (Int × List UInt8)}
    (taken : Channels.take target state.fromServer = some (frame, rest)) :
    Kept connectID { state with fromServer := rest }
      (owed + if isForwarded connectID frame then 1 else 0) :=
  { kept with
    counted := by
      have before := kept.counted
      have split : OrderService.forwarded state connectID =
          rest.countP (fun entry => isForwarded connectID entry.2) +
            if isForwarded connectID frame then 1 else 0 := Channels.countP_take taken _
      change orders state connectID ≤ acks state connectID +
        OrderService.answered state connectID +
        rest.countP (fun entry => isForwarded connectID entry.2) + (_ + _)
      omega
    forwarded := fun entry entry_mem =>
      kept.forwarded entry ((Channels.mem_of_take taken).2 entry entry_mem)
    harmless := fun entry entry_mem =>
      kept.harmless entry ((Channels.mem_of_take taken).2 entry entry_mem) }

theorem takeFromWebServer (kept : Kept connectID state owed) {target : Int}
    {frame : List UInt8} {rest : List (Int × List UInt8)}
    (taken : Channels.take target state.fromWebServer = some (frame, rest)) :
    Kept connectID { state with fromWebServer := rest }
      (owed + if isAnswer connectID frame then 1 else 0) :=
  { kept with
    counted := by
      have before := kept.counted
      have split : OrderService.answered state connectID =
          rest.countP (fun entry => isAnswer connectID entry.2) +
            if isAnswer connectID frame then 1 else 0 := Channels.countP_take taken _
      change orders state connectID ≤ acks state connectID +
        rest.countP (fun entry => isAnswer connectID entry.2) +
        OrderService.forwarded state connectID + (_ + _)
      omega
    answered := fun entry entry_mem =>
      kept.answered entry ((Channels.mem_of_take taken).2 entry entry_mem) }

/-- An order is owed when it arrives. -/
theorem receive (kept : Kept connectID state owed) (sender : Int) (message : List UInt8) :
    Kept connectID { state with received := state.received ++ [(sender, message)] }
      (owed + if sender = connectID ∧ isOrder message then 1 else 0) :=
  { kept with
    counted := by
      have before := kept.counted
      have orders_eq : (state.received ++ [(sender, message)]).countP
          (fun entry => entry.1 = connectID ∧ isOrder entry.2) =
          orders state connectID + if sender = connectID ∧ isOrder message then 1 else 0 := by
        simp only [List.countP_append, List.countP_singleton, decide_eq_true_eq]
        rfl
      change List.countP _ (state.received ++ _) ≤ acks state connectID +
        OrderService.answered state connectID + OrderService.forwarded state connectID + (_ + _)
      rw [orders_eq]
      omega }

/-- The web server writes one frame, which pays off an order if it is its answer. -/
theorem answers (kept : Kept connectID state owed) {frame : List UInt8} {source : Int}
    (routed : isAnswer connectID frame →
      source = state.server.webServerConID ∧ Serves state)
    (paid : owed ≤ left + if isAnswer connectID frame then 1 else 0) :
    Kept connectID (state.answers source [frame]) left :=
  { kept with
    counted := by
      have before := kept.counted
      have answered_eq : (state.fromWebServer ++ [(source, frame)]).countP
          (fun entry => isAnswer connectID entry.2) =
          OrderService.answered state connectID + if isAnswer connectID frame then 1 else 0 := by
        simp only [List.countP_append, List.countP_singleton]
        rfl
      change orders state connectID ≤ acks state connectID +
        List.countP _ (state.fromWebServer ++ _) + OrderService.forwarded state connectID + left
      rw [List.map_singleton, answered_eq]
      omega
    answered := by
      intro entry entry_mem
      simp only [State.answers, List.map_singleton, List.mem_append,
        List.mem_singleton] at entry_mem
      rcases entry_mem with entry_mem | rfl
      · exact kept.answered entry entry_mem
      · exact routed }

theorem webServerAccepts (kept : Kept connectID state 0) {size : WebServer.IntSize}
    {other : Int} {next : State}
    (enabled : step size state (.webServerAccepts other) = some next) :
    Kept connectID next 0 := by
  cases script : state.script with
  | serving other socket => simp [step, script] at enabled
  | ended => simp [step, script] at enabled
  | listening =>
      simp only [step, script, Option.ite_none_right_eq_some, Option.some.injEq] at enabled
      rcases enabled with ⟨opened, rfl⟩
      have confirms : WebServer.confirmConnect size (.listening [] []) =
          .listening [] [[2, 0, 0, 0, 50, 0]] := by
        cases size <;> rfl
      have here := kept.webServer other opened
      have serves : Serves state := by
        rw [Serves, ← here]
        exact opened
      rw [confirms]
      have serving : Kept connectID { state with script := .serving other (.listening [] []) } 0 :=
        { kept with
          script := by
            intro key socket serving
            cases serving
            exact ⟨here, serves⟩
          running := fun ended => Script.noConfusion ended }
      have no_answer : isAnswer connectID [2, 0, 0, 0, 50, 0] = false := rfl
      refine serving.answers ?_ (Nat.zero_le _)
      intro answer
      rw [no_answer] at answer
      exact absurd answer Bool.false_ne_true

theorem webServerReceives (kept : Kept connectID state 0)
    (accounted : Accounted state fun _ => 0) {size : WebServer.IntSize} {next : State}
    (enabled : step size state .webServerReceives = some next) : Kept connectID next 0 := by
  cases script : state.script with
  | listening => simp [step, script] at enabled
  | ended => simp [step, script] at enabled
  | serving other socket =>
      rcases accounted.script other socket script with ⟨rfl, webServer⟩
      simp only [step, script, Option.map_eq_some_iff] at enabled
      rcases enabled with ⟨⟨frame, rest⟩, taken, rfl⟩
      have served := kept.script other _ script
      have entry_mem := (Channels.mem_of_take taken).1
      have harmless : Harmless frame := kept.harmless _ entry_mem webServer
      have taking := kept.takeFromServer taken
      have input : { WebServer.Socket.listening [] [] with
          input := (WebServer.Socket.listening [] []).input ++ frame } =
          WebServer.Socket.listening frame [] := rfl
      rw [input]
      rcases msgHandler_reply size (accounted.toWebServer webServer entry_mem) with
        ⟨_, harms⟩ | ⟨reply, replies, _, names⟩
      · exact absurd harmless harms
      · rw [replies]
        have serving : Kept connectID { state with
            fromServer := rest
            script := .serving other (.listening [] []) } _ :=
          { taking with
            script := by
              intro key socket serving
              cases serving
              exact served
            running := fun ended => Script.noConfusion ended }
        refine serving.answers (fun _ => served) ?_
        simp only [names connectID, Nat.le_refl]

theorem serverReceivesAnswer (kept : Kept connectID state 0)
    (accounted : Accounted state fun _ => 0) {size : WebServer.IntSize} {other : Int}
    {rest stack : Memory} {next : State}
    (enabled : step size state (.serverReceivesAnswer other rest stack) = some next) :
    Kept connectID next 0 := by
  simp only [step, Option.ite_none_right_eq_some, Option.map_eq_some_iff] at enabled
  rcases enabled with ⟨_, ⟨frame, fromWebServer⟩, taken, rfl⟩
  have entry_mem := (Channels.mem_of_take taken).1
  have written : FromWebServer frame := accounted.fromWebServer _ entry_mem
  have delivered : Delivered (frame.drop 4) := by
    cases written with
    | connected => decide
    | result byResult => exact ⟨show 1 ≤ 3 by omega, show 3 ≤ 8180 by omega⟩
    | answer syn => exact ⟨show 1 ≤ 10 by omega, show 10 ≤ 8180 by omega⟩
  simp only [if_pos delivered]
  apply ((kept.takeFromWebServer taken).withStack stack).onWebReadComplete _ _ written
  · omega
  · intro answer
    have accounts := (accounted.takeFromWebServer taken).withStack stack
    have spare : 1 ≤ 0 + if isAnswer connectID frame then 1 else 0 := by
      rw [if_pos answer]
    exact (kept.client (accounts.client_of_spare spare)).1

theorem serverReceivesRequest (kept : Kept connectID state 0)
    (accounted : Accounted state fun _ => 0) {size : WebServer.IntSize} {sender : Int}
    {rest stack : Memory} {next : State}
    (keeps : KeepsOrders connectID state (.serverReceivesRequest sender rest stack))
    (enabled : step size state (.serverReceivesRequest sender rest stack) = some next) :
    Kept connectID next 0 := by
  simp only [step, Option.ite_none_right_eq_some, Option.map_eq_some_iff] at enabled
  rcases enabled with ⟨opened, ⟨message, fromClients⟩, taken, rfl⟩
  have taking : Kept connectID { state with fromClients } 0 := { kept with }
  have accounts : Accounted { state with fromClients } fun _ => 0 := { accounted with }
  by_cases delivered : Delivered message
  · simp only [if_pos delivered]
    have order_iff := isOrder_iff rest delivered
    have received := (taking.receive sender message).withStack stack
    refine received.onClientReadComplete
      ((accounts.receive (isPeer_of_isOpen opened)).withStack stack) ?_ ?_ ?_
    · intro category protocol fits
      have order : isOrder message := order_iff.mpr ⟨category, protocol, fits⟩
      have kept := keeps (message, fromClients) taken order
      have length : message.length = 194 := by
        simp only [isOrder, decide_eq_true_eq] at order
        exact order.1
      have third : buffer rest message 2 = message.getD 2 0 := by
        have stored := @Memory.write_inside rest 0 message 2 (by omega)
        rw [List.getD_eq_getElem _ _ (by omega)]
        exact stored
      rw [third]
      exact kept
    · simp only [order_iff, Nat.zero_add, Nat.le_refl]
    · intro same
      subst same
      exact (kept.client (isPeer_of_isOpen opened)).2
  · simp only [if_neg delivered]
    exact taking

theorem close (kept : Kept connectID state 0) {closed : Int} {line : Line}
    (line_eq : state.lines closed = some line)
    (keeps : KeepsOrders connectID state (.close closed)) :
    Kept connectID (state.setLine closed { line with isOpen := false }) 0 := by
  apply kept.setLine
  · intro serves here
    subst here
    exact keeps.2 serves
  · simp
  · intro old old_eq
    rw [line_eq, Option.some.injEq] at old_eq
    rw [old_eq]
  · intro unused
    exact absurd (line_eq.symm.trans unused) nofun
  · intro here
    exact absurd here keeps.1

theorem step (kept : Kept connectID state 0) (accounted : Accounted state fun _ => 0)
    {size : WebServer.IntSize} {label : Label} {next : State}
    (keeps : KeepsOrders connectID state label)
    (enabled : step size state label = some next) : Kept connectID next 0 := by
  cases label with
  | accept accepted memory stack =>
      simp only [OrderService.step, Option.ite_none_right_eq_some, Option.some.injEq] at enabled
      rcases enabled with ⟨⟨unused, _⟩, rfl⟩
      exact (kept.withStack stack).accept (accounted.withStack stack) unused keeps
  | connect connected succeeds =>
      simp only [OrderService.step, Option.ite_none_right_eq_some, Option.some.injEq] at enabled
      rcases enabled with ⟨⟨unused, _⟩, rfl⟩
      exact kept.connect accounted unused keeps succeeds
  | close closed =>
      simp only [OrderService.step, Option.map_eq_some_iff] at enabled
      rcases enabled with ⟨line, line_eq, rfl⟩
      exact kept.close line_eq keeps
  | clientSends sender message =>
      simp only [OrderService.step, Option.ite_none_right_eq_some, Option.some.injEq] at enabled
      rcases enabled with ⟨_, rfl⟩
      exact { kept with }
  | clientReceives receiver =>
      simp only [OrderService.step, Option.ite_none_right_eq_some, Option.map_eq_some_iff]
        at enabled
      rcases enabled with ⟨opened, ⟨frame, rest⟩, taken, rfl⟩
      have taking := kept.takeFromServer taken
      -- orders travel to the web server, not to a client
      have no_order : isForwarded connectID frame = false := by
        rw [Bool.eq_false_iff]
        intro order
        have routed := kept.forwarded _ (Channels.mem_of_take taken).1 order
        have client := isOpen_iff.mp opened
        have server := isOpen_iff.mp routed.2
        rw [← routed.1, client, Option.some.injEq] at server
        contradiction
      rw [no_order] at taking
      exact taking
  | serverReceivesRequest sender rest stack =>
      exact kept.serverReceivesRequest accounted keeps enabled
  | serverReceivesAnswer other rest stack => exact kept.serverReceivesAnswer accounted enabled
  | webServerAccepts other => exact kept.webServerAccepts enabled
  | webServerReceives => exact kept.webServerReceives accounted enabled
  | webServerEnds => exact keeps.elim

/-- Where nothing is left to deliver, every order has been acknowledged. -/
theorem orders_le_acks (kept : Kept connectID state 0) {size : WebServer.IntSize}
    (rests : (system size).AtRest Label.Delivers state) :
    orders state connectID ≤ acks state connectID := by
  have none_answered : OrderService.answered state connectID = 0 := by
    apply List.countP_eq_zero.mpr
    intro entry entry_mem answer
    have routed := kept.answered entry entry_mem answer
    rcases entry with ⟨source, frame⟩
    rcases Channels.exists_take_of_mem entry_mem with ⟨taken, taken_eq⟩
    have blocked := rests (.serverReceivesAnswer source .zero .zero) trivial
    have here : source = state.server.webServerConID := routed.1
    have opened : state.isOpen source .webServer := by
      rw [here]
      exact routed.2
    simp only [system, OrderService.step, if_pos opened, taken_eq, Option.map_some] at blocked
    contradiction
  have none_forwarded : OrderService.forwarded state connectID = 0 := by
    apply List.countP_eq_zero.mpr
    intro entry entry_mem order
    have routed := kept.forwarded entry entry_mem order
    rcases entry with ⟨target, frame⟩
    cases script : state.script with
    | listening =>
        have blocked := rests (.webServerAccepts state.server.webServerConID) trivial
        have opened : state.isOpen state.server.webServerConID .webServer := routed.2
        simp only [system, OrderService.step, script, if_pos opened] at blocked
        contradiction
    | serving other socket =>
        have served := kept.script other socket script
        rcases Channels.exists_take_of_mem entry_mem with ⟨taken, taken_eq⟩
        have blocked := rests .webServerReceives trivial
        have here : target = other := routed.1.trans served.1.symm
        rw [here] at taken_eq
        simp only [system, OrderService.step, script, taken_eq, Option.map_some] at blocked
        contradiction
    | ended => exact kept.running script
  have counted := kept.counted
  omega

end Kept

theorem kept_initial {state : State} (initial : Initial state) (connectID : Int) :
    Kept connectID state 0 where
  counted := by simp [orders, initial.received]
  client := by simp [IsPeer, initial.lines]
  webServer := by simp [State.isOpen, initial.lines]
  forwarded := by simp [initial.fromServer]
  harmless := by simp [initial.fromServer]
  answered := by simp [initial.fromWebServer]
  script := by simp [initial.script]
  running := by simp [initial.script]

/-- Deliveries add no order. -/
theorem orders_delivers {size : WebServer.IntSize} {state next : State} {label : Label}
    (delivers : label.Delivers) (enabled : step size state label = some next) :
    next.received = state.received := by
  cases label with
  | clientReceives receiver =>
      simp only [step, Option.ite_none_right_eq_some, Option.map_eq_some_iff] at enabled
      rcases enabled with ⟨_, _, _, rfl⟩
      rfl
  | serverReceivesAnswer other rest stack =>
      simp only [step, Option.ite_none_right_eq_some, Option.map_eq_some_iff] at enabled
      rcases enabled with ⟨_, ⟨frame, fromWebServer⟩, _, rfl⟩
      simp only
      split
      · exact (finish_keeps _ _).2
      · rfl
  | webServerAccepts other =>
      simp only [step] at enabled
      split at enabled
      · rw [Option.ite_none_right_eq_some, Option.some.injEq] at enabled
        rcases enabled with ⟨_, rfl⟩
        rfl
      · contradiction
  | webServerReceives =>
      simp only [step] at enabled
      split at enabled
      · rw [Option.map_eq_some_iff] at enabled
        rcases enabled with ⟨⟨frame, rest⟩, _, rfl⟩
        simp only
        split <;> rfl
      · contradiction
  | accept => exact delivers.elim
  | connect => exact delivers.elim
  | close => exact delivers.elim
  | clientSends => exact delivers.elim
  | serverReceivesRequest => exact delivers.elim
  | webServerEnds => exact delivers.elim

theorem keepsOrders_of_delivers {connectID : Int} {state : State} {label : Label}
    (delivers : label.Delivers) : KeepsOrders connectID state label := by
  cases label with
  | clientReceives => trivial
  | serverReceivesAnswer => trivial
  | webServerAccepts => trivial
  | webServerReceives => trivial
  | accept => exact delivers.elim
  | connect => exact delivers.elim
  | close => exact delivers.elim
  | clientSends => exact delivers.elim
  | serverReceivesRequest => exact delivers.elim
  | webServerEnds => exact delivers.elim

/-- In a run that loses no order of a connection, the deliveries left at any time come to an end
within the backlog, in whatever order they are made, and once nothing is left to deliver the
connection has been sent exactly one acknowledgement for each order received from it. -/
theorem orders_acknowledged (size : WebServer.IntSize) (connectID : Int) {state : State}
    (reached : (system size).ReachableBy (KeepsOrders connectID) state) :
    (∃ labels final, (system size).Working Label.Delivers state labels final ∧
        (system size).AtRest Label.Delivers final) ∧
      ∀ labels final, (system size).Working Label.Delivers state labels final →
        labels.length ≤ backlog state ∧
          ((system size).AtRest Label.Delivers final →
            acks final connectID = orders state connectID) := by
  have invariant : Accounted state (fun _ => 0) ∧ Kept connectID state 0 := by
    apply reached.invariant
    · intro initial start
      exact ⟨accounted_initial start, kept_initial start connectID⟩
    · intro before label after holds keeps enabled
      exact ⟨holds.1.step enabled, holds.2.step holds.1 keeps enabled⟩
  refine ⟨(decreases size).exists_atRest invariant.1, ?_⟩
  intro labels final working
  have bound := (decreases size).length_le invariant.1 working
  have after : Accounted final (fun _ => 0) ∧ Kept connectID final 0 ∧
      final.received = state.received := by
    apply working.preserved
    · intro before label after holds delivers enabled
      exact ⟨holds.1.step enabled,
        holds.2.1.step holds.1 (keepsOrders_of_delivers delivers) enabled,
        (orders_delivers delivers enabled).trans holds.2.2⟩
    · exact ⟨invariant.1, invariant.2, rfl⟩
  rcases after with ⟨accounted, kept, received⟩
  refine ⟨by omega, ?_⟩
  intro rests
  have most := kept.orders_le_acks rests
  have least := accounted.counted connectID
  have same : orders final connectID = orders state connectID := congrArg (List.countP _) received
  omega

/-- Client 1 has placed an order, which is on its way to the web server. -/
def placedOrder : List Label :=
  [.accept 1 true .zero, .connect 2 true, .clientSends 1 ([10, 51] ++ List.replicate 192 0),
    .serverReceivesRequest 1 .zero .zero]

set_option maxRecDepth 10000 in
theorem orders_acknowledged_placedOrder :
    ∃ state, (system .four).run started placedOrder = some state ∧ orders state 1 = 1 ∧
      ∀ labels final, (system .four).Working Label.Delivers state labels final →
        (system .four).AtRest Label.Delivers final → acks final 1 = 1 := by
  have runs : ((system .four).run started placedOrder).map (fun state => orders state 1) =
      some 1 := by
    decide +kernel
  have meets : (system .four).RunMeets (KeepsOrders 1) started placedOrder := by
    decide +kernel
  rw [Option.map_eq_some_iff] at runs
  rcases runs with ⟨state, run, one⟩
  refine ⟨state, run, one, ?_⟩
  intro labels final working rests
  have reached := System.ReachableBy.run (.initial (initial_started .four)) meets run
  have acknowledged := ((orders_acknowledged .four 1 reached).2 labels final working).2 rests
  rw [acknowledged, one]

end OrderService

end SunPush
