import SunPush.PushServer.Tracking
import SunPush.Session.Bookkeeping

/-!
# The connection to the web server

`OnConnect` stores the identifier it is told in `g_iWebServerConID`, whether the
attempt has succeeded or not, and `OnClose` leaves it there.  The identifier is
that of an open connection as long as no attempt fails and nothing closes the
connection.  No message of a client does: every open client has a user, in every
run, and only a client without one is closed at once.
-/

namespace SunPush

namespace Server

open Lifecycle

/-! ## The users of the open clients -/

/-- Every open client has a user. -/
def Known (world : World Server) : Prop :=
  ∀ session connectID, (world.poolSession session).client = some connectID →
    world.upper.users.Has connectID

section Known

variable {world next : World Server}

theorem Known.fewer {permission : Permission} (known : Known world)
    (clients : FewerClients permission world.toLifecycle next.toLifecycle)
    (users : ∀ connectID, next.upper.users.Has connectID ↔ world.upper.users.Has connectID) :
    Known next := by
  intro session connectID client
  apply (users connectID).mpr
  rcases clients session with same | ⟨_, closed⟩
  · exact known session connectID (same.symm.trans client)
  · rw [closed] at client
    contradiction

theorem Known.admits {session : Nat} (known : Known world)
    (admits : Admits world.toLifecycle world.upper.users session next) : Known next := by
  rcases admits with ⟨users, clients⟩ | ⟨users, clients⟩
  · intro other connectID client
    apply (users connectID).mpr
    rw [clients] at client
    split at client
    · exact .inl (Option.some.inj client).symm
    · exact .inr (known other connectID client)
  · exact known.fewer (clients.fewer .all) users

theorem known_step {label : Label} (sound : world.toLifecycle.Sound) (known : Known world)
    (steps : world.step callbacks label = some next) : Known next := by
  rcases world.accepts_or_not label with
    ⟨index, completion, acceptor, session, rfl, at_index, succeeded, read⟩ | unaccepted
  · rw [World.next_of_complete at_index steps]
    exact known.admits (admits_accept sound at_index succeeded read)
  · have moves := World.step_moves sound (World.permitsStep_closing unaccepted) steps
    apply known.fewer (sound.fewerClients id moves)
    exact World.step_upper (keep_has _) unaccepted steps fun _ => Iff.rfl

theorem known_of_reachable (reached : service.Reachable world) : Known world := by
  apply reached.invariant_with (fun _ => World.sound_of_reachable)
  · rintro state ⟨server, _, rfl⟩ session connectID client
    contradiction
  · intro state label next sound known _ steps
    exact known_step sound known steps

/-- A message of a client closes nothing at once. -/
theorem lingers_of_known {session : Nat} {acceptor : Nat} (sound : world.toLifecycle.Sound)
    (known : Known world) (owned : (world.poolSession session).owner = some (.acceptor acceptor))
    (msg : Memory) (length : Int) :
    Lingers (world.upper.onClientReadComplete (world.poolSession session).connIndex msg
      length).2 := by
  have client := sound.client_of_owner owned
  exact (handles_onClientReadComplete (known session _ client) msg length).2

end Known

/-! ## The identifier of the web server -/

theorem webServerConID_parsePacketCS (server : Server) (user : Nat) (msg : Memory)
    (size : UInt16) :
    (server.parsePacketCS user msg size).1.webServerConID = server.webServerConID := by
  simp only [parsePacketCS, handlerC2SUserAuthSyn, handlerC2STestOrderSyn]
  split
  · split <;> rfl
  · split
    · split <;> rfl
    · rfl

theorem webServerConID_parsePacketWS (server : Server) (connIndex : Int) (msg : Memory) :
    (server.parsePacketWS connIndex msg).1.webServerConID = server.webServerConID := by
  simp only [parsePacketWS, handlerW2SWsConnectedCmd, handlerW2SAuthResultAck,
    handlerW2SNewOrderBrdCmd]
  split
  · rfl
  · split
    · rfl
    · split <;> rfl

theorem webServerConID_onAccept (server : Server) (connIndex : Int) (memory : Bool) :
    (server.onAccept connIndex memory).1.webServerConID = server.webServerConID := by
  simp only [onAccept]
  split <;> rfl

theorem webServerConID_onReadComplete (owner : Owner) (connIndex : Int) (msg : NetMsg)
    (length : Int) (server : Server) :
    (callbacks.onReadComplete owner connIndex msg length server).1.webServerConID =
      server.webServerConID := by
  cases owner with
  | acceptor acceptor =>
      simp only [callbacks, onClientReadComplete]
      split
      · rfl
      · split
        · rfl
        · exact webServerConID_parsePacketCS server _ msg.bufMsg _
  | connector connector =>
      simp only [callbacks, onWebReadComplete]
      split
      · rfl
      · exact webServerConID_parsePacketWS server connIndex msg.bufMsg

/-- Only `OnConnect` changes the identifier. -/
theorem webServerConID_step {world next : World Server} {label : Label}
    (unconnected : ∀ index completion connector session, label = .complete index completion →
      world.pending[index]? = some (.handleConnect connector session) →
        completion.error ≠ 0 ∧ world.stopSocketFlag = true)
    (steps : world.step callbacks label = some next) :
    next.upper.webServerConID = world.upper.webServerConID := by
  refine @World.step_keeps Server callbacks
    (fun server => server.webServerConID = world.upper.webServerConID) ?_ world next label
      ?_ ?_ ?_ ?_ steps rfl
  · exact fun _ _ _ same => same
  · intro index completion acceptor session _ _ _ _ acceptor connIndex memory server same
    exact (webServerConID_onAccept server connIndex memory).trans same
  · intro index completion connector session labelled at_index calls
    rcases unconnected index completion connector session labelled at_index with ⟨failed, stopped⟩
    have running := calls failed
    rw [stopped] at running
    contradiction
  · intro owner connIndex msg length server same
    exact (webServerConID_onReadComplete owner connIndex msg length server).trans same
  · exact fun _ _ _ _ same => same

/-! ## The connection -/

/-- The session is the open connection that the identifier names. -/
structure Serves (world : World Server) (session : Nat) : Prop where
  alive : (world.poolSession session).alive = true
  connected : (world.poolSession session).socketStatus = .connected
  connects : (world.poolSession session).connector.isSome = true
  named : (world.poolSession session).connIndex = world.upper.webServerConID

/-- The identifier is zero, or that of an open connection. -/
def Meaningful (world : World Server) : Prop :=
  world.upper.webServerConID = 0 ∨ ∃ session, Serves world session

/-- The call closes the session at once. -/
def ClosesSession (world : World Server) (session : Nat) : ApiCall → Prop
  | .closeSocket connectID => world.getSession connectID = some session
  | .asyncClose connectID waitSeconds =>
      waitSeconds = 0 ∧ world.getSession connectID = some session
  | .disConnect connector =>
      ∃ target, world.connectSession connector = some target ∧
        world.getSession (world.poolSession target).connIndex = some session
  | _ => False

/-- No connection attempt fails before the service is stopped, and nothing closes or destroys the
connection that the identifier names. -/
def KeepsConnection (world : World Server) : Label → Prop
  | .complete index completion =>
      match world.pending[index]? with
      | some (.handleConnect _ _) => completion.error = 0 ∨ world.stopSocketFlag = true
      | some (.handleExit session _) => ¬Serves world session
      | _ => True
  | .call call => ∀ session, Serves world session → ¬ClosesSession world session call
  | .removeAll => ∀ entry ∈ world.mapSession.entries, ¬Serves world entry.2
  | .release => ∀ session, ¬Serves world session
  | _ => True

section Step

open World Books

variable {world next : World Server} {label : Label} {session : Nat}

theorem Serves.same (serves : Serves world session)
    (account : next.books.account session = world.books.account session)
    (named : next.upper.webServerConID = world.upper.webServerConID) : Serves next session where
  alive := (congrArg Session.alive account).trans serves.alive
  connected := (congrArg Session.socketStatus account).trans serves.connected
  connects := (congrArg (fun fields => fields.connector.isSome) account).trans serves.connects
  named := ((congrArg Session.connIndex account).trans serves.named).trans named.symm

theorem closes_of_entry {call : ApiCall} (makes : world.entry call = some (.exited session)) :
    ClosesSession world session call := by
  cases call with
  | send connectID encode => contradiction
  | closeSocket connectID => simpa [entry, ClosesSession] using makes
  | asyncClose connectID waitSeconds =>
      simp only [entry, Option.map_eq_some_iff] at makes
      rcases makes with ⟨target, found, closed⟩
      split at closed
      · contradiction
      · next now =>
          rw [Entry.exited.injEq] at closed
          subst closed
          exact ⟨not_not.mp now, found⟩
  | startListen acceptor memory => simp [entry] at makes
  | stopListen acceptor failed => simp [entry] at makes
  | asyncConnect connector memory => cases memory <;> simp [entry] at makes
  | disConnect connector => simpa [entry, ClosesSession, Option.bind_eq_some_iff] using makes

/-- A call that closes nothing at once makes entries that spare every session. -/
theorem spares_of_lingers {calls : List ApiCall} (lingers : Lingers calls) :
    Grants callbacks (Spares session) calls := by
  apply grants_of_forall
  intro current call call_mem made makes
  have closes := lingers call call_mem
  cases makes_of_entry makes with
  | closed connectID target => exact absurd trivial closes
  | closedNow connectID target => exact absurd rfl closes
  | disconnected connector target => exact absurd trivial closes
  | _ => exact ⟨Entry.noConfusion, Entry.noConfusion⟩

/-- The session that `OnAccept` may close is the one that has been accepted. -/
theorem spares_onAccept {acceptor accepted : Nat} {completion : Completion}
    (different : accepted ≠ session) :
    world.GrantsOnAccept callbacks (Spares session) completion acceptor accepted := by
  intro read
  simp only [callbacks, onAccept]
  split
  · refine ⟨?_, trivial⟩
    intro made makes
    have found : (world.accepting acceptor accepted).getSession
        (world.poolSession accepted).connIndex = some accepted := by
      simp [accepting, announced, World.openSession, getSession, updateSession, World.use,
        World.modify, World.count, record]
    have closed : made = .exited accepted := by
      change ((world.accepting acceptor accepted).getSession
        (world.poolSession accepted).connIndex).map Entry.exited = some made at makes
      rw [found, Option.map_some, Option.some.injEq] at makes
      exact makes.symm
    subst closed
    exact ⟨by simpa using different, Entry.noConfusion⟩
  · exact spares_of_lingers (lingers_send _ _ _ _) _

theorem spares_complete {index : Nat} {completion : Completion}
    (sound : world.toLifecycle.Sound) (known : Known world) (serves : Serves world session)
    (keeps : KeepsConnection world (.complete index completion)) :
    world.GrantsStep callbacks (Spares session) (.complete index completion) := by
  intro handler at_index
  cases handler with
  | handleAccept acceptor accepted =>
      have fits : (world.poolSession accepted).socketStatus = .idle :=
        (sound.fits _ (List.mem_of_getElem? at_index)).2.2.1
      have different : accepted ≠ session := by
        rintro rfl
        rw [serves.connected] at fits
        contradiction
      simp only [GrantsHandler, GrantsAccept]
      split
      · exact ⟨Entry.noConfusion, Entry.noConfusion⟩
      · refine ⟨?_, ⟨Entry.noConfusion, Entry.noConfusion⟩, spares_onAccept different⟩
        simp only [firstEntry]
        split <;> exact ⟨Entry.noConfusion, Entry.noConfusion⟩
  | handleConnect connector target =>
      refine ⟨?_, spares_of_lingers lingers_nil⟩
      split
      · split <;> exact ⟨Entry.noConfusion, Entry.noConfusion⟩
      · exact ⟨Entry.noConfusion, Entry.noConfusion⟩
  | handleReadSp target receive =>
      intro msg length owner owned
      apply spares_of_lingers
      cases owner with
      | acceptor acceptor => exact lingers_of_known sound known owned msg.bufMsg length
      | connector connector => exact (handles_onWebReadComplete world.upper _ msg.bufMsg).2
  | handleWrite target length => exact fun _ _ => spares_of_lingers lingers_nil
  | handleExit target wait =>
      simp only [KeepsConnection, at_index] at keeps
      refine ⟨Entry.noConfusion, ?_⟩
      rintro ⟨⟩
      exact keeps serves
  | handleDestory target wait => exact ⟨Entry.noConfusion, Entry.noConfusion⟩

/-- Every step that spares the connection leaves its fields as they are. -/
theorem account_step (sound : world.toLifecycle.Sound) (engaged : world.toLifecycle.Engaged)
    (known : Known world) (serves : Serves world session) (keeps : KeepsConnection world label)
    (steps : world.step callbacks label = some next) :
    next.books.account session = world.books.account session := by
  have posted : world.GrantsStep callbacks (Spares session) label →
      next.books.account session = world.books.account session := by
    intro grants
    exact account_postings (step_postings sound engaged grants steps) serves.alive serves.connected
  cases label with
  | complete index completion => exact posted (spares_complete sound known serves keeps)
  | call call =>
      apply posted
      intro made makes
      refine ⟨?_, ?_⟩
      · rintro rfl
        exact keeps session serves (closes_of_entry makes)
      · rintro rfl
        cases makes_of_entry makes
  | tick seconds => exact posted trivial
  | stop => exact posted ⟨Entry.noConfusion, Entry.noConfusion⟩
  | removeAll =>
      simp only [World.step, Option.some.injEq] at steps
      subst steps
      have unlisted : session ∉ world.mapSession.entries.map Sigma.snd := by
        intro listed
        rw [List.mem_map] at listed
        rcases listed with ⟨entry, entry_mem, rfl⟩
        exact keeps entry entry_mem serves
      have fields : world.removeAllSession.toLifecycle.poolSession session =
          world.poolSession session := by
        rw [removeAllSession_toLifecycle]
        exact (Lifecycle.destroyAll_poolSession _ _ _).trans (if_neg unlisted)
      exact congrArg Session.account fields
  | release => exact absurd serves (keeps session)

/-- After a connection attempt has succeeded the identifier names the new connection. -/
theorem serves_connect {index connector : Nat} {completion : Completion}
    (sound : world.toLifecycle.Sound) (engaged : world.toLifecycle.Engaged)
    (at_index : world.pending[index]? = some (.handleConnect connector session))
    (succeeded : completion.error = 0)
    (steps : world.step callbacks (.complete index completion) = some next) :
    Serves next session := by
  rcases pending_split at_index with ⟨before, after, split, others⟩
  rcases connecting_books sound engaged split with ⟨opening, _, owned⟩
  have runs : next = ((world.take (before ++ after)).connecting session).onConnect callbacks
      connector session completion.error := by
    rw [next_of_complete at_index steps, others]
    simp only [World.handle, World.handleConnect, succeeded, ne_eq, not_true_eq_false, if_false]
    rfl
  rw [runs]
  have fields : (((world.take (before ++ after)).connecting session).poolSession session).account =
      { (world.poolSession session).account with socketStatus := .connected } := by
    have posted := congrArg (fun books => books.account session) (books_connecting split)
    exact posted.trans (Function.update_self _ _ _)
  constructor
  · exact (congrArg Session.alive fields).trans opening.alive
  · exact congrArg Session.socketStatus fields
  · have same := congrArg (fun fields => fields.connector.isSome) fields
    exact same.trans (congrArg Option.isSome owned)
  · rfl

/-- Every step that keeps the connection keeps the identifier meaningful. -/
theorem meaningful_step (sound : world.toLifecycle.Sound) (engaged : world.toLifecycle.Engaged)
    (known : Known world) (meaningful : Meaningful world) (keeps : KeepsConnection world label)
    (steps : world.step callbacks label = some next) : Meaningful next := by
  by_cases connects : ∃ index completion connector session, label = .complete index completion ∧
      world.pending[index]? = some (.handleConnect connector session) ∧ completion.error = 0
  · rcases connects with ⟨index, completion, connector, session, rfl, at_index, succeeded⟩
    exact .inr ⟨session, serves_connect sound engaged at_index succeeded steps⟩
  · have named : next.upper.webServerConID = world.upper.webServerConID := by
      apply webServerConID_step _ steps
      rintro index completion connector session rfl at_index
      simp only [KeepsConnection, at_index] at keeps
      have failed : completion.error ≠ 0 := by
        intro succeeded
        exact connects ⟨index, completion, connector, session, rfl, at_index, succeeded⟩
      exact ⟨failed, keeps.resolve_left failed⟩
    rcases meaningful with zero | ⟨session, serves⟩
    · exact .inl (named.trans zero)
    · exact .inr ⟨session,
        serves.same (account_step sound engaged known serves keeps steps) named⟩

end Step

/-- In every run in which no connection attempt fails and nothing closes the connection to the web
server, its identifier is zero or that of an open connection. -/
theorem meaningful_of_keepsConnection {world : World Server}
    (reached : service.ReachableBy KeepsConnection world) : Meaningful world := by
  have known : ∀ state, service.Reachable state →
      (state.toLifecycle.Sound ∧ state.toLifecycle.Engaged) ∧ Known state := by
    intro state stateReached
    exact ⟨World.engaged_of_reachable stateReached, known_of_reachable stateReached⟩
  apply reached.invariant_with known
  · rintro state ⟨server, initial, rfl⟩
    exact .inl initial.webServerConID
  · rintro state label next ⟨⟨sound, engaged⟩, users⟩ meaningful keeps steps
    exact meaningful_step sound engaged users meaningful keeps steps

theorem meaningful_of_keepsConnection_of_connect :
    ∃ world : World Server, service.ReachableBy KeepsConnection world ∧
      world.upper.webServerConID = 2 ∧ Meaningful world := by
  have runs : ∃ world, service.run (World.initial atStart)
      [.call (.asyncConnect 0 true), .complete 0 (.success [])] = some world ∧
        world.upper.webServerConID = 2 :=
    ⟨_, rfl, by decide⟩
  have meets : service.RunMeets KeepsConnection (World.initial atStart)
      [.call (.asyncConnect 0 true), .complete 0 (.success [])] := by
    refine ⟨fun _ _ => id, ?_⟩
    rintro connecting ⟨⟩
    exact ⟨.inl rfl, fun _ _ => trivial⟩
  rcases runs with ⟨world, runs, named⟩
  have reached := Transition.System.ReachableBy.run (.initial initial_atStart) meets runs
  exact ⟨world, reached, named, meaningful_of_keepsConnection reached⟩

/-- A connection attempt fails, and the identifier is that of its destroyed session. -/
theorem not_meaningful_after_failure :
    ∃ world : World Server, service.Reachable world ∧ ¬Meaningful world := by
  have runs : ∃ world, service.run (World.initial atStart)
      [.call (.asyncConnect 0 true), .complete 0 (.failure 10061)] = some world ∧
        world.upper.webServerConID = 2 ∧ world.currentConnexindex = 2 ∧
          ∀ session < 3, (world.poolSession session).alive = false :=
    ⟨_, rfl, by decide, rfl, by decide⟩
  rcases runs with ⟨world, runs, named, current, destroyed⟩
  have reached : service.Reachable world :=
    Transition.System.reachable_of_run initial_atStart runs
  refine ⟨world, reached, ?_⟩
  rintro (zero | ⟨session, serves⟩)
  · rw [named] at zero
    contradiction
  · have numbered := ((World.sound_of_reachable reached).numbered session serves.alive).1
    have dead := destroyed session (by omega)
    rw [serves.alive] at dead
    contradiction

end Server

end SunPush
