import SunPush.PushServer.Server
import SunPush.Session.Clients

/-!
# The user table and the open clients

`OnAccept` adds a user for the new connection.  `OnClose` is empty, and nothing
calls `RemoveUserByConnectID`, so the user of a connection stays in the table
for ever.  The table tracks the open clients only as long as none of them is
closed: by a call, by the timer of `AsyncClose`, or by `StopSocketService`.
-/

namespace SunPush

namespace Server

/-! ## The calls the packet handlers make -/

/-- None of the calls closes a session at once. -/
def Lingers (calls : List ApiCall) : Prop :=
  ∀ call ∈ calls, ¬call.Closes

/-- What a packet handler does to the table and which calls it makes: it changes records only, and
closes no session at once. -/
def Handles (server : Server) (result : Server × List ApiCall) : Prop :=
  (∀ connectID, result.1.users.Has connectID ↔ server.users.Has connectID) ∧ Lingers result.2

theorem lingers_nil : Lingers [] := by
  simp [Lingers]

theorem lingers_send (server : Server) (connectID : Int) (message : Memory) (length : UInt16) :
    Lingers [server.send connectID message length] := by
  intro call call_mem
  rw [List.mem_singleton] at call_mem
  subst call_mem
  exact id

theorem handles_same (server : Server) : server.Handles (server, []) :=
  ⟨fun _ => Iff.rfl, lingers_nil⟩

theorem handles_kickUser (server : Server) (user : Nat) :
    server.Handles (server.kickUser user) := by
  refine ⟨fun _ => Iff.rfl, ?_⟩
  intro call call_mem
  simp only [kickUser, List.mem_append, List.mem_singleton] at call_mem
  rcases call_mem with announced | closes
  · split at announced
    · exact lingers_send _ _ _ _ call announced
    · contradiction
  · subst closes
    simp [ApiCall.Closes]

theorem handles_parsePacketCS (server : Server) (user : Nat) (msg : Memory) (size : UInt16) :
    server.Handles (server.parsePacketCS user msg size) := by
  simp only [parsePacketCS, handlerC2SUserAuthSyn, handlerC2STestOrderSyn]
  split
  · split
    · exact handles_kickUser server user
    · exact ⟨fun _ => Iff.rfl, lingers_send _ _ _ _⟩
  · split
    · split
      · exact handles_kickUser server user
      · exact ⟨fun _ => Iff.rfl, lingers_send _ _ _ _⟩
    · exact handles_same server

theorem handles_parsePacketWS (server : Server) (connIndex : Int) (msg : Memory) :
    server.Handles (server.parsePacketWS connIndex msg) := by
  simp only [parsePacketWS, handlerW2SWsConnectedCmd, handlerW2SAuthResultAck,
    handlerW2SNewOrderBrdCmd]
  split
  · exact ⟨fun _ => Iff.rfl, lingers_send _ _ _ _⟩
  · split
    · exact handles_same server
    · split
      · exact ⟨fun _ => Iff.rfl, lingers_send _ _ _ _⟩
      · exact handles_same server

theorem handles_onWebReadComplete (server : Server) (connIndex : Int) (msg : Memory) :
    server.Handles (server.onWebReadComplete connIndex msg) := by
  simp only [onWebReadComplete]
  split
  · exact handles_same server
  · exact handles_parsePacketWS server connIndex msg

/-- A message of a client in the table; only one that is not there is closed at once. -/
theorem handles_onClientReadComplete {server : Server} {connIndex : Int}
    (known : server.users.Has connIndex) (msg : Memory) (length : Int) :
    server.Handles (server.onClientReadComplete connIndex msg length) := by
  rcases UserInfoManager.has_iff.mp known with ⟨user, found⟩
  simp only [onClientReadComplete, found]
  split
  · exact handles_same server
  · exact handles_parsePacketCS server user msg _

theorem has_onClientReadComplete (server : Server) (connIndex : Int) (msg : Memory) (length : Int)
    (connectID : Int) :
    (server.onClientReadComplete connIndex msg length).1.users.Has connectID ↔
      server.users.Has connectID := by
  simp only [onClientReadComplete]
  split
  · exact Iff.rfl
  · split
    · exact Iff.rfl
    · exact (handles_parsePacketCS server _ msg _).1 connectID

theorem keep_has (connections : Int → Prop) :
    callbacks.Keep fun server =>
      ∀ connectID, server.users.Has connectID ↔ connections connectID where
  onConnect _ _ _ _ same := same
  onReadComplete owner connIndex msg length server same := by
    intro connectID
    cases owner with
    | acceptor acceptor =>
        exact (has_onClientReadComplete server connIndex msg.bufMsg length connectID).trans
          (same connectID)
    | connector connector =>
        exact ((handles_onWebReadComplete server connIndex msg.bufMsg).1 connectID).trans
          (same connectID)
  onSend _ _ _ _ same := same
  onClose _ _ _ same := same

/-! ## The table and the open clients -/

/-- The connections in the table are those of the open clients. -/
def Tracks (world : World Server) : Prop :=
  ∀ connectID, world.upper.users.Has connectID ↔
    ∃ session, world.toLifecycle.OpenClient session ∧
      (world.poolSession session).connIndex = connectID

/-- The step does not close or destroy an open client. -/
def KeepsClients (world : World Server) : Label → Prop
  | .complete index _ =>
      ∀ session wait, world.pending[index]? = some (.handleExit session wait) →
        ¬world.toLifecycle.OpenClient session
  | .call call => ¬world.ClosesClient call
  | .removeAll => ∀ entry ∈ world.mapSession.entries, ¬world.toLifecycle.OpenClient entry.2
  | .release => ∀ session, ¬world.toLifecycle.OpenClient session
  | _ => True

theorem tracks_iff {world : World Server} :
    Tracks world ↔ ∀ connectID, world.upper.users.Has connectID ↔
      ∃ session, (world.poolSession session).client = some connectID := by
  simp only [Tracks, Lifecycle.client_eq_some_iff]

section Step

open Lifecycle

variable {world : World Server}

theorem permitsStep_quiet {label : Label} (sound : world.toLifecycle.Sound)
    (tracks : Tracks world) (keeps : KeepsClients world label)
    (unaccepted : ∀ index completion acceptor session, label = .complete index completion →
      world.pending[index]? = some (.handleAccept acceptor session) →
        completion.error = 0 → completion.remoteError = true) :
    world.PermitsStep callbacks quietPermission label := by
  have calls : ∀ calls, Lingers calls → quietPermission.Calls calls := by
    intro calls lingers call call_mem closes
    exact lingers call call_mem closes
  cases label with
  | complete index completion =>
      intro handler at_index
      cases handler with
      | handleAccept acceptor session =>
          intro succeeded read
          have unread := unaccepted index completion acceptor session rfl at_index succeeded
          rw [read] at unread
          contradiction
      | handleConnect connector session => exact ⟨fun _ _ => trivial, calls _ lingers_nil⟩
      | handleReadSp session receive =>
          intro msg length owner owned
          cases owner with
          | acceptor acceptor =>
              have known : world.upper.users.Has (world.poolSession session).connIndex :=
                (tracks_iff.mp tracks _).mpr ⟨session, sound.client_of_owner owned⟩
              exact calls _ (handles_onClientReadComplete known msg.bufMsg length).2
          | connector connector =>
              exact calls _ (handles_onWebReadComplete world.upper _ msg.bufMsg).2
      | handleWrite session length => exact fun _ _ => calls _ lingers_nil
      | handleExit session wait =>
          exact fun openClient => keeps session wait at_index openClient
      | handleDestory session wait => exact .inl trivial
  | call call => exact keeps
  | removeAll => exact ⟨.inl trivial, .inr keeps⟩
  | release => exact .inr keeps
  | tick seconds => trivial
  | stop => trivial

theorem tracks_of_same {next : World Server} (tracks : Tracks world)
    (clients : world.toLifecycle.SameClients next.toLifecycle)
    (users : ∀ connectID, next.upper.users.Has connectID ↔ world.upper.users.Has connectID) :
    Tracks next := by
  rw [tracks_iff] at tracks ⊢
  intro connectID
  rw [users, tracks]
  simp only [clients _]

theorem sameClients_serve {acceptor session : Nat} {memory : Bool} {state : ReadState}
    (sound : world.toLifecycle.Sound) (awaits : world.toLifecycle.Awaits session state) :
    world.toLifecycle.SameClients
      ((world.start session).acceptNext acceptor memory).toLifecycle := by
  apply sound.sameClients
  exact (World.start_moves awaits).trans (World.acceptNext_moves acceptor memory _)

section Accept

variable {life : Lifecycle} {taken : World Server} {before after : List Handler}
  {acceptor session : Nat}

theorem client_announced (sound : life.Sound)
    (split : life.pending = before ++ .handleAccept acceptor session :: after)
    (takes : taken.toLifecycle = life.take (before ++ after)) (other : Nat) :
    ((taken.announced acceptor session).poolSession other).client =
      if other = session then some (life.poolSession session).connIndex
      else (life.poolSession other).client := by
  have alive : (life.poolSession session).alive = true := (sound.fits_of_split split).2.1
  rw [World.announced_toLifecycle sound split takes]
  by_cases equal : other = session
  · subst equal
    simp [note, Lifecycle.openSession, setSession, Session.client, alive]
  · simp [note, Lifecycle.openSession, setSession, take, equal]

theorem sameClients_reject (sound : life.Sound)
    (split : life.pending = before ++ .handleAccept acceptor session :: after)
    (takes : taken.toLifecycle = life.take (before ++ after)) (server : Server) :
    life.SameClients ((taken.announced acceptor session).performAll callbacks
      (server, [.closeSocket (life.poolSession session).connIndex])).toLifecycle := by
  have move := @Move.accepted .all life acceptor session before after split trivial
  rw [← World.announced_toLifecycle sound split takes] at move
  have admitted := sound.move move
  have found : (taken.announced acceptor session).mapSession.lookup
      (life.poolSession session).connIndex = some session := by
    rw [World.announced_toLifecycle sound split takes]
    exact AList.lookup_insert life.mapSession
  have closes : ((taken.announced acceptor session).performAll callbacks
      (server, [.closeSocket (life.poolSession session).connIndex])).toLifecycle =
        (taken.announced acceptor session).toLifecycle.exit session (taken.clock + 10) :=
    @World.closeSocket_of_mapped _ callbacks
      { taken.announced acceptor session with upper := server } session _ admitted found
  intro other
  rw [closes, client_exit, client_announced sound split takes]
  split
  · next equal =>
      rw [equal]
      exact (sound.client_of_opens (mem_of_split split) rfl).symm
  · rfl

theorem performAll_users (world : World Server) (result : Server × List ApiCall)
    (connectID : Int) :
    (world.performAll callbacks result).upper.users.Has connectID ↔
      result.1.users.Has connectID :=
  World.performAll_upper (keep_has fun connectID => result.1.users.Has connectID).onClose
    (fun _ => Iff.rfl) connectID

/-- A client has been entered into the table, or it has been closed again. -/
def Admits (life : Lifecycle) (users : UserInfoManager) (session : Nat) (next : World Server) :
    Prop :=
  (∀ connectID, next.upper.users.Has connectID ↔
      connectID = (life.poolSession session).connIndex ∨ users.Has connectID) ∧
    (∀ other, (next.poolSession other).client =
      if other = session then some (life.poolSession session).connIndex
      else (life.poolSession other).client) ∨
  (∀ connectID, next.upper.users.Has connectID ↔ users.Has connectID) ∧
    life.SameClients next.toLifecycle

theorem Admits.same {users : UserInfoManager} {next later : World Server}
    (admits : Admits life users session next)
    (clients : next.toLifecycle.SameClients later.toLifecycle)
    (upper : later.upper = next.upper) : Admits life users session later := by
  simp only [Admits, upper, clients _, Lifecycle.SameClients]
  exact admits

/-- `OnAccept` enters its client into the table, or closes it. -/
theorem admits_onAccept {memory : Bool} (sound : life.Sound)
    (split : life.pending = before ++ .handleAccept acceptor session :: after)
    (takes : taken.toLifecycle = life.take (before ++ after)) :
    Admits life taken.upper.users session ((taken.announced acceptor session).performAll callbacks
      (taken.upper.onAccept (life.poolSession session).connIndex memory)) := by
  rcases taken.upper.users.addUser_connection (life.poolSession session).connIndex memory with
    ⟨⟨user, added⟩, has⟩ | full
  · have entered : ∃ server : Server, ∃ calls, Lingers calls ∧
        (∀ connectID, server.users.Has connectID ↔
          connectID = (life.poolSession session).connIndex ∨ taken.upper.users.Has connectID) ∧
        taken.upper.onAccept (life.poolSession session).connIndex memory = (server, calls) := by
      rcases outcome : taken.upper.users.addUser (life.poolSession session).connIndex 0 memory with
        ⟨result, users⟩
      rw [outcome] at added has
      simp only at added has
      subst added
      simp only [onAccept, outcome]
      exact ⟨_, _, lingers_send _ _ _ _, has, rfl⟩
    rcases entered with ⟨server, calls, lingers, entered, outcome⟩
    have move := @Move.accepted .all life acceptor session before after split trivial
    rw [← World.announced_toLifecycle sound split takes] at move
    have admitted := sound.move move
    have called : ApiMoves quietPermission (taken.announced acceptor session).toLifecycle
        ((taken.announced acceptor session).performAll callbacks (server, calls)).toLifecycle := by
      apply World.performAll_moves admitted
      intro call call_mem closes
      exact lingers call call_mem closes
    have same := admitted.sameClients called.moves
    rw [outcome]
    refine .inl ⟨?_, ?_⟩
    · intro connectID
      exact (performAll_users _ _ connectID).trans (entered connectID)
    · intro other
      exact (same other).trans (client_announced sound split takes other)
  · have rejected : taken.upper.onAccept (life.poolSession session).connIndex memory =
        (taken.upper, [.closeSocket (life.poolSession session).connIndex]) := by
      simp only [onAccept, full]
    rw [rejected]
    exact .inr ⟨performAll_users _ _, sameClients_reject sound split takes taken.upper⟩

end Accept

theorem admits_accept {index acceptor session : Nat} {completion : Completion}
    (sound : world.toLifecycle.Sound)
    (at_index : world.pending[index]? = some (.handleAccept acceptor session))
    (succeeded : completion.error = 0) (read : completion.remoteError = false) :
    Admits world.toLifecycle world.upper.users session (World.handle callbacks completion
      { world with pending := world.pending.eraseIdx index } (.handleAccept acceptor session)) := by
  rcases World.pending_split at_index with ⟨before, after, split, others⟩
  have takes : ({ world with pending := world.pending.eraseIdx index }.count fun s =>
      { s with totalConneced := s.totalConneced + 1 }).toLifecycle =
        world.toLifecycle.take (before ++ after) := by
    rw [← others]
    rfl
  have users : ({ world with pending := world.pending.eraseIdx index }.count fun s =>
      { s with totalConneced := s.totalConneced + 1 }).upper.users = world.upper.users := rfl
  simp only [World.handle, World.handleAccept, succeeded, read, ne_eq, not_true_eq_false,
    if_false, Bool.false_eq_true]
  generalize ({ world with pending := world.pending.eraseIdx index }.count fun s =>
    { s with totalConneced := s.totalConneced + 1 }) = taken at takes users ⊢
  have pool : taken.poolSession = world.poolSession := by rw [takes]; rfl
  have entered := @admits_onAccept world.toLifecycle taken before after acceptor session
    completion.upperMemory sound split takes
  have move := @Move.accepted .all world.toLifecycle acceptor session before after split trivial
  rw [← World.announced_toLifecycle sound split takes] at move
  have called : ApiMoves .all (taken.announced acceptor session).toLifecycle
      ((taken.announced acceptor session).performAll callbacks
        (taken.upper.onAccept (world.poolSession session).connIndex
          completion.upperMemory)).toLifecycle :=
    World.performAll_moves (sound.move move) fun _ _ _ => trivial
  have awaits := (World.awaits_announced sound split takes).apiMoves called
  have served := @sameClients_serve _ acceptor session completion.memory _
    ((sound.move move).apiMoves called) awaits
  rw [World.acceptClient_eq sound split takes, pool]
  rw [users] at entered
  apply entered.same served
  rw [World.acceptNext_upper]
  rfl

theorem tracks_of_admits {next : World Server} {session : Nat} (tracks : Tracks world)
    (unopened : (world.poolSession session).client = none)
    (admits : Admits world.toLifecycle world.upper.users session next) : Tracks next := by
  rcases admits with ⟨users, clients⟩ | ⟨users, clients⟩
  · rw [tracks_iff] at tracks ⊢
    intro connectID
    rw [users, tracks]
    constructor
    · rintro (rfl | ⟨other, client⟩)
      · exact ⟨session, (clients session).trans (if_pos rfl)⟩
      · refine ⟨other, ?_⟩
        rw [clients, if_neg, client]
        rintro rfl
        rw [unopened] at client
        contradiction
    · rintro ⟨other, client⟩
      rw [clients] at client
      split at client
      · exact .inl (Option.some.inj client).symm
      · exact .inr ⟨other, client⟩
  · exact tracks_of_same tracks clients users

/-- Every step that closes and destroys no open client keeps the table in step with them. -/
theorem tracks_step {next : World Server} {label : Label} (sound : world.toLifecycle.Sound)
    (tracks : Tracks world) (keeps : KeepsClients world label)
    (steps : world.step callbacks label = some next) : Tracks next := by
  rcases world.accepts_or_not label with
    ⟨index, completion, acceptor, session, rfl, at_index, succeeded, read⟩ | unaccepted
  · have unopened : (world.poolSession session).client = none :=
      sound.client_of_opens (List.mem_of_getElem? at_index) rfl
    rw [World.next_of_complete at_index steps]
    exact tracks_of_admits tracks unopened (admits_accept sound at_index succeeded read)
  · have permitted := permitsStep_quiet sound tracks keeps unaccepted
    apply tracks_of_same tracks (sound.sameClients (World.step_moves sound permitted steps))
    exact World.step_upper (keep_has _) unaccepted steps fun _ => Iff.rfl

end Step

theorem tracks_initial {world : World Server} (start : service.Initial world) : Tracks world := by
  rcases start with ⟨server, initial, rfl⟩
  intro connectID
  constructor
  · intro has
    rw [World.initial, initial.users] at has
    exact absurd has (UserInfoManager.not_has_empty connectID)
  · rintro ⟨session, openClient, _⟩
    exact absurd openClient.1 Bool.false_ne_true

/-- In a run that closes and destroys no open client, the user table has the connections of the
open clients. -/
theorem tracks_of_keepsClients {world : World Server}
    (reached : service.ReachableBy KeepsClients world) : Tracks world := by
  have known : ∀ state, service.Reachable state → state.toLifecycle.Sound := by
    intro state stateReached
    exact World.sound_of_reachable stateReached
  apply reached.invariant_with known
  · intro state start
    exact tracks_initial start
  · intro state label next sound tracks keeps steps
    exact tracks_step sound tracks keeps steps

/-- A server that starts with zeroes on its stack. -/
def atStart : Server where
  users := .empty
  webServerConID := 0
  serverType := .null
  stack := .zero
  invalidParameter := false

theorem initial_atStart : service.Initial (World.initial atStart) :=
  ⟨atStart, ⟨rfl, rfl, rfl, rfl⟩, rfl⟩

theorem tracks_after_accept :
    ∃ world : World Server, service.ReachableBy KeepsClients world ∧
      world.upper.users.Has 2 ∧ Tracks world := by
  have runs : ∃ world, service.run (World.initial atStart)
      [.call (.startListen 0 true), .complete 0 (.success [])] = some world ∧
        world.upper.users.findUserByConnectID 2 = some 0 :=
    ⟨_, rfl, rfl⟩
  have meets : service.RunMeets KeepsClients (World.initial atStart)
      [.call (.startListen 0 true), .complete 0 (.success [])] := by
    refine ⟨id, ?_⟩
    rintro listening ⟨⟩
    refine ⟨?_, fun _ _ => trivial⟩
    rintro session wait ⟨⟩
  rcases runs with ⟨world, runs, found⟩
  have reached := Transition.System.ReachableBy.run (.initial initial_atStart) meets runs
  exact ⟨world, reached, UserInfoManager.has_iff.mpr ⟨0, found⟩, tracks_of_keepsClients reached⟩

/-- A client is accepted and closed by `CloseSocket`; its user stays in the table. -/
theorem not_tracks_after_closeSocket :
    ∃ world : World Server, service.Reachable world ∧ ¬Tracks world := by
  have runs : ∃ world, service.run (World.initial atStart)
      [.call (.startListen 0 true), .complete 0 (.success []), .call (.closeSocket 2)] =
        some world ∧ world.upper.users.findUserByConnectID 2 = some 0 ∧
          world.currentConnexindex = 3 ∧ (world.poolSession 2).socketStatus = .closed :=
    ⟨_, rfl, rfl, rfl, rfl⟩
  rcases runs with ⟨world, runs, found, current, closed⟩
  have reached : service.Reachable world :=
    Transition.System.reachable_of_run initial_atStart runs
  refine ⟨world, reached, ?_⟩
  intro tracks
  rcases (tracks 2).mp (UserInfoManager.has_iff.mpr ⟨0, found⟩) with ⟨session, openClient, same⟩
  rcases (World.sound_of_reachable reached).numbered session openClient.1 with ⟨bound, connIndex⟩
  -- only the session numbered 2 has this identifier
  have number : session = 2 := by
    rw [current] at bound
    rw [same, CInteger.toLong_of_mem_range (by omega) (by omega)] at connIndex
    omega
  subst number
  have opened := openClient.2.1
  rw [closed] at opened
  contradiction

end Server

end SunPush
