import SunPush.Session.Sound

/-!
# The service makes the moves

Each function of the service, restricted to the part of the state that decides
what becomes of the sessions, is a sequence of moves.  The functions are taken
in the order of the source: closing and sending, the calls into the socket
layer, the callbacks, the handlers, and last the steps.

A handler that has been taken may use its session as long as none has been
destroyed under it; `Awaits` is what is left of this, and of the receive it was
called for, while the callback it makes calls back into the socket layer.
-/

namespace SunPush

open CInteger

namespace Lifecycle

abbrev ApiMoves (permission : Permission) : Lifecycle → Lifecycle → Prop :=
  Relation.ReflTransGen (ApiMove permission)

abbrev Moves (permission : Permission) : Lifecycle → Lifecycle → Prop :=
  Relation.ReflTransGen (Move permission)

theorem ApiMoves.moves {permission : Permission} {life next : Lifecycle}
    (moves : ApiMoves permission life next) : Moves permission life next := by
  apply Relation.ReflTransGen.mono _ _ _ moves
  intro before after move
  exact .api move

theorem Sound.apiMoves {permission : Permission} {life next : Lifecycle} (sound : life.Sound)
    (moves : ApiMoves permission life next) : next.Sound := by
  apply Transition.preserved_of_moves _ moves sound
  intro before after move beforeSound
  exact beforeSound.apiMove move

theorem Sound.moves {permission : Permission} {life next : Lifecycle} (sound : life.Sound)
    (moves : Moves permission life next) : next.Sound := by
  apply Transition.preserved_of_moves _ moves sound
  intro before after move beforeSound
  exact beforeSound.move move

theorem Touched.use_eq {life : Lifecycle} {session : Nat} (touched : life.Touched session) :
    life.use session = life := by
  rcases life with ⟨flag, current, pool, map, pending, log, used⟩
  cases used with
  | true => rfl
  | false =>
      have alive := touched rfl
      simp only at alive
      simp [use, alive]

theorem touched_use (life : Lifecycle) (session : Nat) : (life.use session).Touched session := by
  intro unused
  simp only [use, Bool.or_eq_false_iff, Bool.not_eq_false'] at unused
  exact unused.2

/-- The session has been used by its handler, and neither a receive nor its opening is pending. -/
structure Awaits (life : Lifecycle) (session : Nat) (state : ReadState) : Prop where
  quiet : ∀ handler ∈ life.pending, handler.session = session →
    handler.receives = false ∧ handler.opens = false
  readState : (life.poolSession session).readState = state
  numbered : life.Numbered session
  touched : life.Touched session

theorem Awaits.allocate {life : Lifecycle} {session : Nat} {state : ReadState} {fields : Session}
    {added : Handler} (awaits : life.Awaits session state)
    (next : added.session = life.currentConnexindex + 1) :
    ((life.allocate fields).queue added).Awaits session state := by
  rcases awaits with ⟨quiet, readState, numbered, touched⟩
  have different : session ≠ life.currentConnexindex + 1 := by
    have := numbered.1
    omega
  refine ⟨?_, ?_, numbered.allocate fields, ?_⟩
  · intro handler handler_mem same
    simp only [queue, Lifecycle.allocate, List.mem_append, List.mem_singleton] at handler_mem
    rcases handler_mem with earlier_mem | rfl
    · exact quiet handler earlier_mem same
    · exact absurd (same.symm.trans next) different
  · simpa [queue, Lifecycle.allocate, Function.update_of_ne different] using readState
  · intro unused
    simpa [queue, Lifecycle.allocate, Function.update_of_ne different] using touched unused

theorem Awaits.apiMove {permission : Permission} {life next : Lifecycle} {session : Nat}
    {state : ReadState} (awaits : life.Awaits session state)
    (move : ApiMove permission life next) : next.Awaits session state := by
  rcases awaits with ⟨quiet, readState, numbered, touched⟩
  cases move with
  | noted event notes => exact ⟨quiet, readState, numbered, touched⟩
  | cancelled target =>
      refine ⟨?_, readState, numbered, touched⟩
      intro handler handler_mem same
      simp only [Lifecycle.cancel, List.mem_map] at handler_mem
      rcases handler_mem with ⟨earlier, earlier_mem, rfl⟩
      rw [Handler.session_cancel] at same
      rw [Handler.receives_cancel, Handler.opens_cancel]
      exact quiet earlier earlier_mem same
  | queued added queues mapped =>
      refine ⟨?_, readState, numbered, touched⟩
      intro handler handler_mem same
      simp only [queue, List.mem_append, List.mem_singleton] at handler_mem
      rcases handler_mem with earlier_mem | rfl
      · exact quiet handler earlier_mem same
      · exact ⟨Handler.receives_of_queues queues, Handler.opens_of_queues queues⟩
  | exited target due notClosed opened targetNumbered targetTouched permitted =>
      refine ⟨?_, ?_, ?_, ?_⟩
      · intro handler handler_mem same
        rcases mem_exit_pending life target due handler_mem with
          earlier_mem | ⟨earlier, earlier_mem, rfl⟩ | rfl
        · exact quiet handler earlier_mem same
        · rw [Handler.session_cancel] at same
          rw [Handler.receives_cancel, Handler.opens_cancel]
          exact quiet earlier earlier_mem same
        · exact ⟨rfl, rfl⟩
      · by_cases same : session = target
        · subst same
          simpa [closed] using readState
        · simpa [Function.update_of_ne same] using readState
      · exact numbered.exit target due
      · intro unused
        rw [exit_usedAfterDestroy] at unused
        by_cases same : session = target
        · subst same
          simpa [closed] using touched unused
        · simpa [Function.update_of_ne same] using touched unused
  | listening acceptor => exact allocate ⟨quiet, readState, numbered, touched⟩ rfl
  | connecting connector => exact allocate ⟨quiet, readState, numbered, touched⟩ rfl

theorem Awaits.apiMoves {permission : Permission} {life next : Lifecycle} {session : Nat}
    {state : ReadState} (awaits : life.Awaits session state)
    (moves : ApiMoves permission life next) : next.Awaits session state := by
  apply Transition.preserved_of_moves _ moves awaits
  intro before after move beforeAwaits
  exact beforeAwaits.apiMove move

end Lifecycle

namespace World

open Lifecycle

variable {U : Type} {callbacks : Callbacks U} {permission : Permission}

/-! ## Closing and sending -/

theorem handleExit_of_closed {world : World U} {session : Nat}
    (closed : (world.poolSession session).isClosed = true) :
    (world.handleExit callbacks session).toLifecycle = world.toLifecycle.use session := by
  have unchanged : ((world.use session).poolSession session).isClosed = true := closed
  simp only [handleExit, unchanged, if_true]
  rfl

theorem use_of_touched {world : World U} {session : Nat}
    (touched : world.toLifecycle.Touched session) : world.use session = world := by
  have used : (world.use session).toLifecycle = world.toLifecycle := touched.use_eq
  rcases world with ⟨life, connectSession, clock, statistics, upper⟩
  exact congrArg (World.mk · connectSession clock statistics upper) used

theorem tellClosed_toLifecycle (session : Nat) (world : World U) :
    (world.tellClosed callbacks session).toLifecycle =
        (world.toLifecycle.tell session).setSession session
          { world.poolSession session with
            acceptor := none
            connector :=
              if (world.poolSession session).acceptor.isSome then
                (world.poolSession session).connector
              else none } ∧
      (world.tellClosed callbacks session).clock = world.clock := by
  rcases Option.eq_none_or_eq_some (world.poolSession session).acceptor with
    noAcceptor | ⟨acceptor, hasAcceptor⟩
  · rcases Option.eq_none_or_eq_some (world.poolSession session).connector with
      noConnector | ⟨connector, hasConnector⟩
    · have same : ({ world.poolSession session with acceptor := none, connector := none } :
          Session) = world.poolSession session := by
        rcases fields : world.poolSession session with ⟨alive, status, connIndex, _, _, readState⟩
        simp only [fields] at noAcceptor noConnector
        simp [noAcceptor, noConnector]
      simp [tellClosed, Lifecycle.tell, Session.owner, noAcceptor, noConnector, setSession, same]
    · simp [tellClosed, Lifecycle.tell, Session.owner, noAcceptor, hasConnector, setSession, modify,
        count, record]
  · simp [tellClosed, Lifecycle.tell, Session.owner, hasAcceptor, setSession, modify, count, record]

theorem leaveMap_toLifecycle (session : Nat) (world : World U) :
    (world.leaveMap session).toLifecycle =
      world.toLifecycle.leave (world.poolSession session).connIndex session
        (world.clock + 10) := by
  cases found : world.mapSession.lookup (world.poolSession session).connIndex with
  | none => simp only [leaveMap, leave, getSession, found]
  | some other =>
      simp only [leaveMap, leave, getSession, found]
      rfl

theorem handleExit_of_open {world : World U} {session : Nat}
    (touched : world.toLifecycle.Touched session)
    (notClosed : (world.poolSession session).isClosed = false) :
    (world.handleExit callbacks session).toLifecycle =
      world.toLifecycle.exit session (world.clock + 10) := by
  simp only [handleExit, use_of_touched touched, notClosed, Bool.false_eq_true, if_false]
  have marks : ((world.modify session fun s => { s with socketStatus := .closed }).count fun s =>
      { s with totalClosed := s.totalClosed + 1 }).toLifecycle =
        world.toLifecycle.setSession session
          { world.poolSession session with socketStatus := .closed } ∧
      ((world.modify session fun s => { s with socketStatus := .closed }).count fun s =>
        { s with totalClosed := s.totalClosed + 1 }).clock = world.clock :=
    ⟨rfl, rfl⟩
  generalize ((world.modify session fun s => { s with socketStatus := .closed }).count fun s =>
    { s with totalClosed := s.totalClosed + 1 }) = marked at marks ⊢
  rcases marks with ⟨life, clock⟩
  rcases @tellClosed_toLifecycle U callbacks session marked with ⟨told, toldClock⟩
  rw [leaveMap_toLifecycle, told, toldClock, life, clock, exit]
  have owner : ({ world.poolSession session with socketStatus := .closed } : Session).owner =
      (world.poolSession session).owner := rfl
  simp only [setSession, Lifecycle.tell, Function.update_self, Function.update_idem, owner]
  rfl

/-- Closing a session that is not closed yet uses it first. -/
theorem handleExit_of_notClosed {world : World U} {session : Nat}
    (notClosed : ¬(world.poolSession session).isClosed = true) :
    (world.handleExit callbacks session).toLifecycle =
      (world.toLifecycle.use session).exit session (world.clock + 10) := by
  have touched : (world.use session).toLifecycle.Touched session :=
    touched_use world.toLifecycle session
  have twice : world.handleExit callbacks session =
      (world.use session).handleExit callbacks session := by
    simp only [handleExit, use_of_touched touched]
  rw [twice]
  exact handleExit_of_open touched (Bool.eq_false_iff.mpr notClosed)

/-! ## Calls into the socket layer -/

/-- Only open sessions of an acceptor need permission to be closed. -/
theorem handleExit_moves {world : World U} {session : Nat} {connectID : Int}
    (sound : world.toLifecycle.Sound)
    (found : world.mapSession.lookup connectID = some session)
    (permitted : world.toLifecycle.OpenClient session → permission.closeClient) :
    ApiMoves permission world.toLifecycle (world.handleExit callbacks session).toLifecycle := by
  have notClosed := sound.notClosed_of_mapped found
  have touched := sound.touched_of_mapped found
  rw [handleExit_of_open touched notClosed]
  apply Relation.ReflTransGen.single
  apply ApiMove.exited session (world.clock + 10) notClosed _ _ touched permitted
  · exact sound.not_opens_of_mapped found
  · exact sound.numbered session (sound.mapped connectID session found).1

/-- The call closes an open session of an acceptor at once. -/
def ClosesClient (world : World U) : ApiCall → Prop
  | .closeSocket connectID =>
      ∃ session, world.getSession connectID = some session ∧
        world.toLifecycle.OpenClient session
  | .asyncClose connectID waitSeconds =>
      waitSeconds = 0 ∧ ∃ session, world.getSession connectID = some session ∧
        world.toLifecycle.OpenClient session
  | .disConnect connector =>
      ∃ target, world.connectSession connector = some target ∧
        ∃ session, world.getSession (world.poolSession target).connIndex = some session ∧
          world.toLifecycle.OpenClient session
  | _ => False

theorem sendSession_moves {world : World U} {session : Nat} {connectID length : Int}
    (sound : world.toLifecycle.Sound)
    (found : world.mapSession.lookup connectID = some session) :
    ApiMoves permission world.toLifecycle (world.sendSession session length).toLifecycle := by
  have notClosed := sound.notClosed_of_mapped found
  simp only [sendSession, use_of_touched (sound.touched_of_mapped found), notClosed,
    Bool.false_eq_true, if_false]
  exact .single (.queued (.handleWrite session length) rfl ⟨connectID, found⟩)

theorem close_moves {world : World U} {session : Nat} {connectID waitSeconds : Int}
    (sound : world.toLifecycle.Sound)
    (found : world.mapSession.lookup connectID = some session)
    (permitted : waitSeconds = 0 → world.toLifecycle.OpenClient session →
      permission.closeClient) :
    ApiMoves permission world.toLifecycle
      (world.close callbacks session waitSeconds).toLifecycle := by
  by_cases now : waitSeconds = 0
  · simp only [close, now, ne_eq, not_true_eq_false, if_false]
    exact handleExit_moves sound found (permitted now)
  · simp only [close, ne_eq, now, not_false_eq_true, if_true,
      use_of_touched (sound.touched_of_mapped found)]
    have cancelled : ApiMoves permission world.toLifecycle (world.toLifecycle.cancel session) :=
      .single (.cancelled session)
    exact cancelled.tail (.queued (.handleExit session ⟨world.clock + waitSeconds, false⟩) rfl
      ⟨connectID, found⟩)

theorem closeSocket_moves {world : World U} {connectID : Int} (sound : world.toLifecycle.Sound)
    (permitted : world.ClosesClient (.closeSocket connectID) → permission.closeClient) :
    ApiMoves permission world.toLifecycle
      (world.closeSocket callbacks connectID).toLifecycle := by
  cases found : world.mapSession.lookup connectID with
  | none =>
      simp only [closeSocket, getSession, found]
      exact .refl
  | some session =>
      simp only [closeSocket, getSession, found]
      apply close_moves sound found
      intro _ openClient
      exact permitted ⟨session, found, openClient⟩

theorem closeSocket_of_mapped {world : World U} {session : Nat} {connectID : Int}
    (sound : world.toLifecycle.Sound)
    (found : world.mapSession.lookup connectID = some session) :
    (world.closeSocket callbacks connectID).toLifecycle =
      world.toLifecycle.exit session (world.clock + 10) := by
  simp only [closeSocket, getSession, found, close, ne_eq, not_true_eq_false, if_false]
  exact handleExit_of_open (sound.touched_of_mapped found) (sound.notClosed_of_mapped found)

theorem startListen_moves (acceptor : Nat) (memory : Bool) (world : World U) :
    ApiMoves permission world.toLifecycle
      (world.startListen acceptor memory).toLifecycle := by
  by_cases stopped : world.stopSocketFlag = true
  · simp only [startListen, stopped, if_true]
    exact .refl
  · simp only [startListen, stopped]
    cases memory with
    | false => exact .refl
    | true => exact .single (.listening acceptor)

theorem asyncConnect_moves (connector : Nat) (memory : Bool) (world : World U) :
    ApiMoves permission world.toLifecycle
      (world.asyncConnect connector memory).toLifecycle := by
  by_cases stopped : world.stopSocketFlag = true
  · simp only [asyncConnect, stopped, if_true]
    exact .refl
  · simp only [asyncConnect, stopped]
    cases memory with
    | false => exact .refl
    | true =>
        have allocated := @ApiMove.connecting permission world.toLifecycle connector
        simp only [allocSession, modify, count, post, if_true, Function.update_self,
          Function.update_idem]
        exact .single allocated

theorem perform_moves {world : World U} {call : ApiCall} (sound : world.toLifecycle.Sound)
    (permitted : world.ClosesClient call → permission.closeClient) :
    ApiMoves permission world.toLifecycle (world.perform callbacks call).toLifecycle := by
  cases call with
  | send connectID encode =>
      cases found : world.mapSession.lookup connectID with
      | none =>
          simp only [perform, getSession, found]
          exact .refl
      | some session =>
          simp only [perform, getSession, found, Option.isSome_some]
          cases (encode world.stopSocketFlag true).sent with
          | none => exact .refl
          | some length => exact sendSession_moves sound found
  | closeSocket connectID => exact closeSocket_moves sound permitted
  | asyncClose connectID waitSeconds =>
      cases found : world.mapSession.lookup connectID with
      | none =>
          simp only [perform, getSession, found]
          exact .refl
      | some session =>
          simp only [perform, getSession, found]
          apply close_moves sound found
          intro now openClient
          exact permitted ⟨now, session, found, openClient⟩
  | startListen acceptor memory => exact startListen_moves acceptor memory world
  | stopListen acceptor failed =>
      cases failed with
      | true => exact .refl
      | false => exact .refl
  | asyncConnect connector memory => exact asyncConnect_moves connector memory world
  | disConnect connector =>
      cases target : world.connectSession connector with
      | none =>
          simp only [perform, target]
          exact .refl
      | some session =>
          simp only [perform, target]
          apply closeSocket_moves sound
          intro closes
          exact permitted ⟨session, target, closes⟩

end World

namespace ApiCall

/-- The call may close a session at once. -/
def Closes : ApiCall → Prop
  | closeSocket _ => True
  | asyncClose _ waitSeconds => waitSeconds = 0
  | disConnect _ => True
  | _ => False

theorem closes_of_closesClient {U : Type} {world : World U} {call : ApiCall}
    (closes : world.ClosesClient call) : call.Closes := by
  cases call with
  | closeSocket connectID => trivial
  | asyncClose connectID waitSeconds => exact closes.1
  | disConnect connector => trivial
  | _ => exact closes

end ApiCall

/-- The calls a callback makes close no open session of an acceptor, or this is permitted. -/
def Permission.Calls (permission : Permission) (calls : List ApiCall) : Prop :=
  ∀ call ∈ calls, call.Closes → permission.closeClient

/-- The calls the owner of a session makes when something is reported to it are permitted. -/
def Permission.Reports (permission : Permission) (fields : Session)
    (calls : Owner → Int → List ApiCall) : Prop :=
  ∀ owner, fields.owner = some owner → permission.Calls (calls owner fields.connIndex)

namespace World

open Lifecycle

variable {U : Type} {callbacks : Callbacks U} {permission : Permission}

theorem performAll_moves {world : World U} {result : U × List ApiCall}
    (sound : world.toLifecycle.Sound) (permitted : permission.Calls result.2) :
    ApiMoves permission world.toLifecycle (world.performAll callbacks result).toLifecycle := by
  rcases result with ⟨upper, calls⟩
  simp only [performAll]
  have same : { world with upper := upper }.toLifecycle = world.toLifecycle := rfl
  generalize { world with upper := upper } = current at same ⊢
  rw [← same] at sound ⊢
  clear same
  induction calls generalizing current with
  | nil => exact .refl
  | cons call rest ih =>
      have first : ApiMoves permission current.toLifecycle
          (current.perform callbacks call).toLifecycle := by
        apply perform_moves sound
        intro closes
        exact permitted call List.mem_cons_self (ApiCall.closes_of_closesClient closes)
      have others : permission.Calls rest := fun later later_mem =>
        permitted later (List.mem_cons_of_mem call later_mem)
      exact first.trans (ih others _ (sound.apiMoves first))

/-! ## The callbacks -/

theorem callback_moves {world : World U} {event : Event} {result : U × List ApiCall}
    (sound : world.toLifecycle.Sound) (notes : world.toLifecycle.Notes event)
    (permitted : permission.Calls result.2) :
    ApiMoves permission world.toLifecycle
      ((world.record event).performAll callbacks result).toLifecycle := by
  have recorded : (world.record event).toLifecycle = world.toLifecycle.note event := rfl
  have called := @performAll_moves U callbacks permission (world.record event) result
    (recorded ▸ sound.note event) permitted
  rw [recorded] at called
  exact Relation.ReflTransGen.head (.noted event notes) called

theorem onReadComplete_moves {world : World U} {session : Nat} {msg : NetMsg} {length : Int}
    (sound : world.toLifecycle.Sound) (touched : world.toLifecycle.Touched session)
    (permitted : permission.Reports (world.poolSession session) fun owner connIndex =>
      (callbacks.onReadComplete owner connIndex msg length world.upper).2) :
    ApiMoves permission world.toLifecycle
      (world.onReadComplete callbacks session msg length).toLifecycle := by
  cases owned : (world.poolSession session).owner with
  | none =>
      simp only [onReadComplete, use_of_touched touched, owned]
      exact .refl
  | some owner =>
      simp only [onReadComplete, use_of_touched touched, owned]
      apply callback_moves sound
      · simp only [Notes, owned, Option.isSome_some]
      · exact permitted owner owned

theorem onSend_moves {world : World U} {session : Nat} {length : Int}
    (sound : world.toLifecycle.Sound) (touched : world.toLifecycle.Touched session)
    (permitted : permission.Reports (world.poolSession session) fun owner connIndex =>
      (callbacks.onSend owner connIndex length world.upper).2) :
    ApiMoves permission world.toLifecycle
      (world.onSend callbacks session length).toLifecycle := by
  cases owned : (world.poolSession session).owner with
  | none =>
      simp only [onSend, use_of_touched touched, owned]
      exact .refl
  | some owner =>
      simp only [onSend, use_of_touched touched, owned]
      apply callback_moves sound
      · simp only [Notes, owned, Option.isSome_some]
      · exact permitted owner owned

theorem onConnect_moves {world : World U} {connector session : Nat} {errorCode : Int}
    (sound : world.toLifecycle.Sound) (touched : world.toLifecycle.Touched session)
    (permitted : permission.Calls
      (callbacks.onConnect connector (world.poolSession session).connIndex errorCode
        world.upper).2) :
    ApiMoves permission world.toLifecycle
      (world.onConnect callbacks connector session errorCode).toLifecycle := by
  simp only [onConnect, use_of_touched touched]
  exact callback_moves sound trivial permitted

/-! ## The handlers -/

theorem receiveSp_moves {world : World U} {session : Nat} {state : ReadState} {receive : Receive}
    (awaits : world.toLifecycle.Awaits session state) (window : ReadState.Window state receive) :
    Moves permission world.toLifecycle (world.receiveSp session receive).toLifecycle := by
  rcases awaits with ⟨quiet, readState, numbered, touched⟩
  simp only [receiveSp, use_of_touched touched]
  apply Relation.ReflTransGen.single
  exact .received session receive quiet (readState ▸ window) numbered touched

theorem reread_moves {world : World U} {session : Nat} {state : ReadState} (next : ReadState)
    (awaits : world.toLifecycle.Awaits session state) :
    Moves permission world.toLifecycle
        (world.modify session fun s => { s with readState := next }).toLifecycle ∧
      (world.modify session fun s => { s with readState := next }).toLifecycle.Awaits session
        next := by
  rcases awaits with ⟨quiet, readState, numbered, touched⟩
  constructor
  · apply Relation.ReflTransGen.single
    apply Move.reread session next
    intro handler handler_mem same
    exact (quiet handler handler_mem same).1
  · refine ⟨quiet, ?_, numbered.setSession fun _ => numbered.2, ?_⟩
    · simp [modify]
    · intro unused
      simpa [modify] using touched unused

theorem start_moves {world : World U} {session : Nat} {state : ReadState}
    (awaits : world.toLifecycle.Awaits session state) :
    Moves permission world.toLifecycle (world.start session).toLifecycle := by
  rcases @reread_moves U permission world session state .expectHeader awaits with ⟨reread, after⟩
  simp only [start, use_of_touched awaits.touched]
  exact reread.trans (receiveSp_moves after (.header getPoolMessage))

theorem acceptNext_moves (acceptor : Nat) (memory : Bool) (world : World U) :
    Moves permission world.toLifecycle (world.acceptNext acceptor memory).toLifecycle := by
  cases memory with
  | false => exact .refl
  | true => exact .single (.api (.listening acceptor))

/-- What completing an operation needs permission for.  `others` are the other pending handlers. -/
def Permits (callbacks : Callbacks U) (permission : Permission) (world : World U)
    (completion : Completion) (others : List Handler) : Handler → Prop
  | .handleAccept acceptor session =>
      completion.error = 0 → completion.remoteError = false →
        permission.openClient ∧
          permission.Calls (callbacks.onAccept acceptor (world.poolSession session).connIndex
            completion.upperMemory world.upper).2
  | .handleConnect connector session =>
      (completion.error ≠ 0 → world.stopSocketFlag = false → permission.useRefused) ∧
        permission.Calls (callbacks.onConnect connector (world.poolSession session).connIndex
          completion.error world.upper).2
  | .handleReadSp session _ =>
      ∀ msg length, permission.Reports (world.poolSession session) fun owner connIndex =>
        (callbacks.onReadComplete owner connIndex msg length world.upper).2
  | .handleWrite session length =>
      permission.Reports (world.poolSession session) fun owner connIndex =>
        (callbacks.onSend owner connIndex length world.upper).2
  | .handleExit session _ => world.toLifecycle.OpenClient session → permission.closeClient
  | .handleDestory session _ =>
      permission.destroyEarly ∨ world.toLifecycle.Idle others session

theorem deliver_moves {world : World U} {session : Nat} {message : Option (NetMsg × Int)}
    (sound : world.toLifecycle.Sound) (touched : world.toLifecycle.Touched session)
    (permitted : ∀ msg length, permission.Reports (world.poolSession session)
      fun owner connIndex => (callbacks.onReadComplete owner connIndex msg length world.upper).2) :
    ApiMoves permission world.toLifecycle
      (world.deliver callbacks session message).toLifecycle := by
  rcases message with _ | ⟨msg, length⟩
  · exact .refl
  · exact @onReadComplete_moves U callbacks permission
      (world.count fun s => { s with totalMsgRecvCount := s.totalMsgRecvCount + 1 }) session msg
      length sound touched (permitted msg length)

theorem finishReadSp_moves {world : World U} {session : Nat} {state : ReadState}
    {outcome : ReadOutcome} {next : Receive} (sound : world.toLifecycle.Sound)
    (awaits : world.toLifecycle.Awaits session state) (stays : outcome.exit = false)
    (posts : outcome.receive = some next) (window : ReadState.Window outcome.state next)
    (permitted : ∀ msg length, permission.Reports (world.poolSession session)
      fun owner connIndex => (callbacks.onReadComplete owner connIndex msg length world.upper).2) :
    Moves permission world.toLifecycle
      (world.finishReadSp callbacks session outcome).toLifecycle := by
  rcases @reread_moves U permission world session state outcome.state awaits with ⟨reread, rereads⟩
  have owner : ((world.modify session fun s => { s with readState := outcome.state }).poolSession
      session).owner = (world.poolSession session).owner := by
    simp [modify, Session.owner]
  have connIndex : ((world.modify session fun s =>
      { s with readState := outcome.state }).poolSession session).connIndex =
        (world.poolSession session).connIndex := by
    simp [modify]
  have upper : (world.modify session fun s => { s with readState := outcome.state }).upper =
    world.upper := rfl
  simp only [finishReadSp, stays, posts, Bool.false_eq_true, if_false]
  generalize (world.modify session fun s => { s with readState := outcome.state }) = current
    at reread rereads owner connIndex upper ⊢
  have delivers : ApiMoves permission current.toLifecycle
      (current.deliver callbacks session outcome.deliver).toLifecycle := by
    apply deliver_moves (sound.moves reread) rereads.touched
    intro msg length someOwner owned
    rw [connIndex, upper]
    exact permitted msg length someOwner (owner ▸ owned)
  have receives := @receiveSp_moves U permission _ session outcome.state next
    (rereads.apiMoves delivers) window
  exact (reread.trans delivers.moves).trans receives

section Handlers

variable {life : Lifecycle} {world : World U} {before after : List Handler}
  {completion : Completion}

theorem taken_moves {handler : Handler} (split : life.pending = before ++ handler :: after)
    (kind : handler.queues = true ∨ handler.receives = true ∧ life.stopSocketFlag = false)
    (taken : world.toLifecycle = life.take (before ++ after)) :
    Moves permission life (world.use handler.session).toLifecycle := by
  have used : (world.use handler.session).toLifecycle =
      (life.take (before ++ after)).use handler.session := by
    rw [← taken]
    rfl
  rw [used]
  exact .single (.taken split kind)

theorem awaits_of_receive {session : Nat} {receive : Receive} (sound : life.Sound)
    (split : life.pending = before ++ .handleReadSp session receive :: after)
    (taken : world.toLifecycle = life.take (before ++ after)) :
    (world.use session).toLifecycle.Awaits session (life.poolSession session).readState := by
  have used : (world.use session).toLifecycle = (life.take (before ++ after)).use session := by
    rw [← taken]
    rfl
  rw [used]
  refine ⟨?_, rfl, (sound.fits_of_split split).1, touched_use _ _⟩
  exact sound.lone_receive split rfl

/-- The world in which `handle_read_sp` has counted the bytes it asked for. -/
def countRecv (receive : Receive) (world : World U) : World U :=
  world.count fun s => { s with totalDataRecv := s.totalDataRecv + receive.recvLength }

/-- What is known when `handle_read_sp` has decided on `outcome`.  `world` is the world in which it
has counted. -/
structure Decides (life : Lifecycle) (world : World U) (session : Nat) (receive : Receive)
    (completion : Completion) (outcome : ReadOutcome) (next : Receive) : Prop where
  running : world.stopSocketFlag = false
  notClosed : (world.poolSession session).isClosed = false
  decided : outcome = (life.poolSession session).readState.handleReadSp
    (receive.msg.place receive.recvOffset completion.bytes) (toSizeT receive.recvLength)
    completion.wouldBlock
  stays : outcome.exit = false
  posts : outcome.receive = some next
  window : ReadState.Window outcome.state next
  awaits : (world.use session).toLifecycle.Awaits session (life.poolSession session).readState

/-- What `handle_read_sp` does: nothing if the service is being stopped or the session is closed,
else it decides on an outcome, and never to close the session. -/
theorem handleReadSp_cases {session : Nat} {receive : Receive} (sound : life.Sound)
    (split : life.pending = before ++ .handleReadSp session receive :: after)
    (taken : world.toLifecycle = life.take (before ++ after)) :
    ((world.countRecv receive).stopSocketFlag = true ∧
      world.handleReadSp callbacks session receive completion = world.countRecv receive) ∨
    Moves permission life ((world.countRecv receive).use session).toLifecycle ∧
      (((world.countRecv receive).poolSession session).isClosed = true ∧
        world.handleReadSp callbacks session receive completion =
          (world.countRecv receive).use session ∨
      ∃ outcome next,
        (world.countRecv receive).Decides life session receive completion outcome next ∧
          world.handleReadSp callbacks session receive completion =
            ((world.countRecv receive).use session).finishReadSp callbacks session outcome) := by
  have counted : (world.countRecv receive).toLifecycle = life.take (before ++ after) := taken
  have handles : world.handleReadSp callbacks session receive completion =
      if (world.countRecv receive).stopSocketFlag then world.countRecv receive
      else if ((world.countRecv receive).poolSession session).isClosed then
        (world.countRecv receive).use session
      else
        ((world.countRecv receive).use session).finishReadSp callbacks session
          ((((world.countRecv receive).use session).poolSession session).readState.handleReadSp
            (receive.msg.place receive.recvOffset completion.bytes)
            (toSizeT receive.recvLength) completion.wouldBlock) := rfl
  rw [handles]
  generalize world.countRecv receive = current at counted ⊢
  have flag : current.stopSocketFlag = life.stopSocketFlag := by rw [counted]; rfl
  cases stopped : current.stopSocketFlag with
  | true => exact .inl ⟨rfl, if_pos rfl⟩
  | false =>
      right
      refine ⟨taken_moves split (.inr ⟨rfl, flag.symm.trans stopped⟩) counted, ?_⟩
      cases closed : (current.poolSession session).isClosed with
      | true => exact .inl ⟨rfl, by simp⟩
      | false =>
          right
          have awaits := awaits_of_receive sound split counted
          have window : ReadState.Window (life.poolSession session).readState receive :=
            (sound.fits_of_split split).2
          obtain ⟨stays, next, posts, fits⟩ := ReadState.handleReadSp_window window
            (receive.msg.place receive.recvOffset completion.bytes) completion.wouldBlock
          refine ⟨_, next, ⟨stopped, closed, rfl, stays, posts, fits, awaits⟩, ?_⟩
          simp only [Bool.false_eq_true, if_false, awaits.readState]

theorem handleReadSp_moves {session : Nat} {receive : Receive} (sound : life.Sound)
    (split : life.pending = before ++ .handleReadSp session receive :: after)
    (taken : world.toLifecycle = life.take (before ++ after))
    (permitted : world.Permits callbacks permission completion (before ++ after)
      (.handleReadSp session receive)) :
    Moves permission life
      (world.handleReadSp callbacks session receive completion).toLifecycle := by
  have counted : (world.countRecv receive).toLifecycle = life.take (before ++ after) := taken
  rcases @handleReadSp_cases U callbacks permission life world before after completion session
    receive sound split taken with
    ⟨stopped, unchanged⟩ | ⟨starts, ⟨_, used⟩ | ⟨outcome, next, decides, finishes⟩⟩
  · rw [unchanged, counted]
    rw [counted] at stopped
    exact .single (.skipped split stopped)
  · rw [used]
    exact starts
  · rw [finishes]
    exact starts.trans (finishReadSp_moves (sound.moves starts) decides.awaits decides.stays
      decides.posts decides.window permitted)

theorem handleWrite_moves {session : Nat} {length : Int} (sound : life.Sound)
    (split : life.pending = before ++ .handleWrite session length :: after)
    (taken : world.toLifecycle = life.take (before ++ after))
    (permitted : world.Permits callbacks permission completion (before ++ after)
      (.handleWrite session length)) :
    Moves permission life
      (world.handleWrite callbacks session length completion).toLifecycle := by
  have starts : Moves permission life (world.use session).toLifecycle :=
    taken_moves split (.inl rfl) taken
  by_cases closed : ((world.use session).poolSession session).isClosed = true
  · simp only [handleWrite, closed, if_true]
    exact starts
  · simp only [handleWrite, closed]
    have touched : (world.use session).toLifecycle.Touched session :=
      touched_use world.toLifecycle session
    have reports : ApiMoves permission (world.use session).toLifecycle
        ((world.use session).onSend callbacks session length).toLifecycle :=
      onSend_moves (sound.moves starts) touched permitted
    exact starts.trans reports.moves

theorem handleExit_wait_moves {session : Nat} {wait : Wait} (sound : life.Sound)
    (split : life.pending = before ++ .handleExit session wait :: after)
    (taken : world.toLifecycle = life.take (before ++ after))
    (permitted : world.Permits callbacks permission completion (before ++ after)
      (.handleExit session wait)) :
    Moves permission life (world.handleExit callbacks session).toLifecycle := by
  have starts : Moves permission life (world.use session).toLifecycle :=
    taken_moves split (.inl rfl) taken
  have pool : world.poolSession = life.poolSession := by rw [taken]; rfl
  by_cases closed : (world.poolSession session).isClosed = true
  · rw [handleExit_of_closed closed]
    exact starts
  · rw [handleExit_of_notClosed closed]
    refine starts.tail (.api (.exited session _ ?_ ?_ ?_ ?_ ?_))
    · simpa [use] using closed
    · intro handler handler_mem same
      have compatible := sound.compatible
      rw [split, List.pairwise_middle Handler.Compatible.symm, List.pairwise_cons] at compatible
      have others : (world.use session).pending = before ++ after := by
        simp only [use, taken, take]
      rw [others] at handler_mem
      exact (compatible.1 handler handler_mem same.symm).2.1
    · have numbered : (life.take (before ++ after)).Numbered session :=
        (sound.fits_of_split split).1
      rw [← taken] at numbered
      exact numbered
    · exact touched_use world.toLifecycle session
    · exact permitted

theorem handleDestory_moves {session : Nat} {wait : Wait}
    (split : life.pending = before ++ .handleDestory session wait :: after)
    (taken : world.toLifecycle = life.take (before ++ after))
    (permitted : world.Permits callbacks permission completion (before ++ after)
      (.handleDestory session wait)) :
    Moves permission life (world.handleDestory session).toLifecycle := by
  have destroyed : (world.handleDestory session).toLifecycle =
      world.toLifecycle.destroy session := rfl
  simp only [Permits, taken] at permitted
  rw [destroyed, taken]
  exact .single (.destroyed split permitted)

theorem dropped_moves {acceptor session : Nat} (sound : life.Sound)
    (split : life.pending = before ++ .handleAccept acceptor session :: after)
    (taken : world.toLifecycle = life.take (before ++ after)) :
    Moves permission life (world.handleExit callbacks session).toLifecycle := by
  have fits := (sound.fits_of_split split).2
  rcases Handler.Fits.of_opens fits rfl with ⟨alive, notClosed, _⟩
  have pool : world.poolSession = life.poolSession := by rw [taken]; rfl
  have touched : world.toLifecycle.Touched session := by
    intro _
    rw [pool]
    exact alive
  rw [handleExit_of_open touched (pool ▸ notClosed), taken]
  exact .single (.dropped _ split)

theorem openSession_toLifecycle {session : Nat} (change : Session → Session)
    (touched : world.toLifecycle.Touched session) :
    (world.openSession session change).toLifecycle =
      world.toLifecycle.openSession session (change (world.poolSession session)) := by
  simp only [openSession, use_of_touched touched, modify, updateSession, Function.update_self]
  rfl

theorem awaits_of_opens {handler : Handler} {session : Nat} {fields : Session}
    (sound : life.Sound) (split : life.pending = before ++ handler :: after)
    (opens : handler.opens = true) (same : handler.session = session)
    (alive : fields.alive = true)
    (connIndex : fields.connIndex = (life.poolSession session).connIndex) :
    ((life.take (before ++ after)).openSession session fields).Awaits session
      fields.readState := by
  subst same
  have numbered := (sound.fits_of_split split).1
  refine ⟨?_, ?_, numbered.setSession fun _ => connIndex.trans numbered.2, ?_⟩
  · intro other other_mem otherSame
    exact absurd otherSame (sound.alone split opens other other_mem)
  · simp [Lifecycle.openSession, setSession]
  · intro _
    simpa [Lifecycle.openSession, setSession] using alive

/-- The world in which `OnAccept` makes its calls: the accepted session is opened and the callback
noted. -/
def announced (acceptor session : Nat) (world : World U) : World U :=
  (world.openSession session fun s =>
    { s with socketStatus := .connected, acceptor := some acceptor }).record (.onAccept session)

theorem announced_toLifecycle {acceptor session : Nat} (sound : life.Sound)
    (split : life.pending = before ++ .handleAccept acceptor session :: after)
    (taken : world.toLifecycle = life.take (before ++ after)) :
    (world.announced acceptor session).toLifecycle =
      ((life.take (before ++ after)).openSession session
        { life.poolSession session with
          socketStatus := .connected, acceptor := some acceptor }).note (.onAccept session) := by
  have pool : world.poolSession = life.poolSession := by rw [taken]; rfl
  have alive : (life.poolSession session).alive = true := (sound.fits_of_split split).2.1
  have opened := @openSession_toLifecycle U world session
    (fun s => { s with socketStatus := .connected, acceptor := some acceptor })
    (fun _ => pool ▸ alive)
  rw [taken] at opened
  exact congrArg (Lifecycle.note · (.onAccept session)) opened

theorem awaits_announced {acceptor session : Nat} (sound : life.Sound)
    (split : life.pending = before ++ .handleAccept acceptor session :: after)
    (taken : world.toLifecycle = life.take (before ++ after)) :
    (world.announced acceptor session).toLifecycle.Awaits session
      (life.poolSession session).readState := by
  have alive : (life.poolSession session).alive = true := (sound.fits_of_split split).2.1
  have awaits := @awaits_of_opens life before after _ session
    { life.poolSession session with socketStatus := .connected, acceptor := some acceptor }
    sound split rfl rfl alive rfl
  rw [announced_toLifecycle sound split taken]
  exact ⟨awaits.quiet, awaits.readState, awaits.numbered, awaits.touched⟩

/-- Serving an accepted client: `OnAccept` makes its calls, then the session is started. -/
theorem acceptClient_eq {acceptor session : Nat} {memory : Bool} (sound : life.Sound)
    (split : life.pending = before ++ .handleAccept acceptor session :: after)
    (taken : world.toLifecycle = life.take (before ++ after)) :
    world.acceptClient callbacks acceptor session memory =
      ((world.announced acceptor session).performAll callbacks
        (callbacks.onAccept acceptor (world.poolSession session).connIndex memory
          world.upper)).start session := by
  have touched := (awaits_announced sound split taken).touched
  have connIndex : ((world.openSession session fun s =>
      { s with socketStatus := .connected, acceptor := some acceptor }).poolSession
        session).connIndex = (world.poolSession session).connIndex := by
    simp [openSession, use, modify, updateSession]
  have upper : (world.openSession session fun s =>
    { s with socketStatus := .connected, acceptor := some acceptor }).upper = world.upper := rfl
  simp only [acceptClient, announced] at touched ⊢
  generalize (world.openSession session fun s =>
    { s with socketStatus := .connected, acceptor := some acceptor }) = current
    at touched connIndex upper ⊢
  have currentTouched : current.toLifecycle.Touched session := touched
  simp only [onAccept, use_of_touched currentTouched, connIndex, upper]

theorem acceptClient_moves {acceptor session : Nat} {memory : Bool} (sound : life.Sound)
    (split : life.pending = before ++ .handleAccept acceptor session :: after)
    (taken : world.toLifecycle = life.take (before ++ after)) (opens : permission.openClient)
    (permitted : permission.Calls (callbacks.onAccept acceptor
      (world.poolSession session).connIndex memory world.upper).2) :
    Moves permission life
      (world.acceptClient callbacks acceptor session memory).toLifecycle := by
  have move := @Move.accepted permission life acceptor session before after split opens
  rw [← announced_toLifecycle sound split taken] at move
  have calls : ApiMoves permission (world.announced acceptor session).toLifecycle _ :=
    @performAll_moves U callbacks permission _ _ (sound.move move) permitted
  have starts := @start_moves U permission _ session _
    ((awaits_announced sound split taken).apiMoves calls)
  rw [acceptClient_eq sound split taken]
  exact (Relation.ReflTransGen.head move calls.moves).trans starts

theorem handleAccept_moves {acceptor session : Nat} (sound : life.Sound)
    (split : life.pending = before ++ .handleAccept acceptor session :: after)
    (taken : world.toLifecycle = life.take (before ++ after))
    (permitted : world.Permits callbacks permission completion (before ++ after)
      (.handleAccept acceptor session)) :
    Moves permission life
      (world.handleAccept callbacks acceptor session completion).toLifecycle := by
  by_cases failed : completion.error = 0
  · have counted : (world.count fun s =>
        { s with totalConneced := s.totalConneced + 1 }).toLifecycle =
          life.take (before ++ after) := taken
    have stillPermitted : (world.count fun s =>
        { s with totalConneced := s.totalConneced + 1 }).Permits callbacks permission completion
          (before ++ after) (.handleAccept acceptor session) := permitted
    simp only [handleAccept, failed, ne_eq, not_true_eq_false, if_false]
    generalize (world.count fun s => { s with totalConneced := s.totalConneced + 1 }) = current
      at counted stillPermitted ⊢
    cases remote : completion.remoteError with
    | true =>
        simp only [if_true]
        exact (dropped_moves sound split counted).trans (acceptNext_moves _ _ _)
    | false =>
        rcases stillPermitted failed remote with ⟨opens, calls⟩
        simp only [Bool.false_eq_true, if_false]
        exact (acceptClient_moves sound split counted opens calls).trans (acceptNext_moves _ _ _)
  · simp only [handleAccept, ne_eq, failed, not_false_eq_true, if_true]
    have destroyed : (world.destroySession session).toLifecycle =
        world.toLifecycle.destroy session := rfl
    rw [destroyed, taken]
    exact .single (.refused split)

theorem start_keeps (session : Nat) (world : World U) :
    (world.start session).toLifecycle.Touched session ∧
      ((world.start session).poolSession session).connIndex =
          (world.poolSession session).connIndex ∧
        (world.start session).upper = world.upper := by
  refine ⟨?_, ?_, rfl⟩
  · intro unused
    simp only [start, receiveSp, use, modify, post, Function.update_self, Bool.or_eq_false_iff,
      Bool.not_eq_false'] at unused ⊢
    exact unused.1.2
  · simp only [start, receiveSp, use, modify, post, Function.update_self]

theorem connected_moves {connector session : Nat} (sound : life.Sound)
    (split : life.pending = before ++ .handleConnect connector session :: after)
    (taken : world.toLifecycle = life.take (before ++ after)) :
    Moves permission life ((world.openSession session fun s =>
      { s with socketStatus := .connected }).start session).toLifecycle := by
  have pool : world.poolSession = life.poolSession := by rw [taken]; rfl
  have alive : (life.poolSession session).alive = true := (sound.fits_of_split split).2.1
  have opened := @openSession_toLifecycle U world session
    (fun s => { s with socketStatus := .connected }) (fun _ => pool ▸ alive)
  generalize (world.openSession session fun s => { s with socketStatus := .connected }) = current
    at opened ⊢
  rw [taken] at opened
  have awaits := @awaits_of_opens life before after _ session
    { life.poolSession session with socketStatus := .connected } sound split rfl rfl alive rfl
  have move := @Move.connected permission life connector session before after split
  have same : (life.take (before ++ after)).openSession session
      { life.poolSession session with socketStatus := .connected } = current.toLifecycle :=
    opened.symm
  rw [same] at move awaits
  exact Relation.ReflTransGen.head move (start_moves awaits)

/-- A session whose connection attempt failed is used after it has been destroyed. -/
theorem failed_moves {connector session : Nat} {errorCode : Int} {refused : World U}
    (sound : life.Sound)
    (split : life.pending = before ++ .handleConnect connector session :: after)
    (refusal : refused.toLifecycle = ((life.take (before ++ after)).setSession session
      { life.poolSession session with socketStatus := .error }).destroy session)
    (refuses : permission.useRefused)
    (permitted : permission.Calls (callbacks.onConnect connector
      (refused.poolSession session).connIndex errorCode refused.upper).2) :
    Moves permission life
      (refused.onConnect callbacks connector session errorCode).toLifecycle := by
  have move := @Move.failed permission life connector session before after split refuses
  have used : (refused.use session).toLifecycle =
      (((life.take (before ++ after)).setSession session
        { life.poolSession session with socketStatus := .error }).destroy session).use session := by
    rw [← refusal]
    rfl
  rw [← used] at move
  have tells : ApiMoves permission (refused.use session).toLifecycle
      (refused.onConnect callbacks connector session errorCode).toLifecycle :=
    callback_moves (sound.move move) trivial permitted
  exact Relation.ReflTransGen.head move tells.moves

theorem handleConnect_moves {connector session : Nat} (sound : life.Sound)
    (split : life.pending = before ++ .handleConnect connector session :: after)
    (taken : world.toLifecycle = life.take (before ++ after))
    (permitted : world.Permits callbacks permission completion (before ++ after)
      (.handleConnect connector session)) :
    Moves permission life
      (world.handleConnect callbacks connector session completion).toLifecycle := by
  have pool : world.poolSession = life.poolSession := by rw [taken]; rfl
  have flag : world.stopSocketFlag = life.stopSocketFlag := by rw [taken]; rfl
  rcases permitted with ⟨refuses, calls⟩
  by_cases failed : completion.error = 0
  · have opens := @connected_moves U permission life world before after connector session sound
      split taken
    have connIndex : ((world.openSession session fun s =>
        { s with socketStatus := .connected }).poolSession session).connIndex =
          (world.poolSession session).connIndex := by
      simp [openSession, use, modify, updateSession]
    have upper : (world.openSession session fun s =>
      { s with socketStatus := .connected }).upper = world.upper := rfl
    simp only [handleConnect, failed, ne_eq, not_true_eq_false, if_false]
    generalize (world.openSession session fun s => { s with socketStatus := .connected }) = current
      at opens connIndex upper ⊢
    rcases start_keeps session current with ⟨touched, sameIndex, sameUpper⟩
    have tells : ApiMoves permission (current.start session).toLifecycle
        ((current.start session).onConnect callbacks connector session 0).toLifecycle := by
      apply onConnect_moves (sound.moves opens) touched
      rw [sameIndex, sameUpper, connIndex, upper]
      exact failed ▸ calls
    exact opens.trans tells.moves
  · by_cases stopped : world.stopSocketFlag = true
    · simp only [handleConnect, ne_eq, failed, not_false_eq_true, if_true, stopped]
      rw [taken]
      exact .single (.skipped split (flag ▸ stopped))
    · simp only [handleConnect, ne_eq, failed, not_false_eq_true, if_true, stopped]
      have alive : (world.poolSession session).alive = true :=
        pool ▸ (sound.fits_of_split split).2.1
      have unused : (world.count fun s =>
          { s with totalConnecting := s.totalConnecting - 1 }).use session =
            world.count fun s => { s with totalConnecting := s.totalConnecting - 1 } :=
        use_of_touched fun _ => alive
      apply failed_moves sound split _ (refuses failed (by simpa using stopped))
      · simpa [destroySession, use, modify, count, expiresFromNow, Session.destruct] using calls
      · rw [unused, ← pool, ← taken]
        rfl

theorem handle_moves {handler : Handler} (sound : life.Sound)
    (split : life.pending = before ++ handler :: after)
    (taken : world.toLifecycle = life.take (before ++ after))
    (permitted : world.Permits callbacks permission completion (before ++ after) handler) :
    Moves permission life (handle callbacks completion world handler).toLifecycle := by
  cases handler with
  | handleAccept acceptor session => exact handleAccept_moves sound split taken permitted
  | handleConnect connector session => exact handleConnect_moves sound split taken permitted
  | handleReadSp session receive => exact handleReadSp_moves sound split taken permitted
  | handleWrite session length => exact handleWrite_moves sound split taken permitted
  | handleExit session wait => exact handleExit_wait_moves sound split taken permitted
  | handleDestory session wait => exact handleDestory_moves split taken permitted

end Handlers

/-! ## The steps -/

/-- What a step needs permission for. -/
def PermitsStep (callbacks : Callbacks U) (permission : Permission) (world : World U) :
    Label → Prop
  | .complete index completion =>
      ∀ handler, world.pending[index]? = some handler →
        world.Permits callbacks permission completion (world.pending.eraseIdx index) handler
  | .call call => world.ClosesClient call → permission.closeClient
  | .removeAll =>
      (permission.removeEarly ∨
          ∀ entry ∈ world.mapSession.entries,
            world.toLifecycle.Idle world.pending entry.2) ∧
        (permission.closeClient ∨
          ∀ entry ∈ world.mapSession.entries, ¬world.toLifecycle.OpenClient entry.2)
  | .release => permission.closeClient ∨ ∀ session, ¬world.toLifecycle.OpenClient session
  | _ => True

theorem removeAllSession_toLifecycle (world : World U) :
    world.removeAllSession.toLifecycle =
      { world.toLifecycle.destroyAll (world.mapSession.entries.map Sigma.snd) with
        mapSession := ∅ } := by
  have folded : ∀ (entries : List (Sigma fun _ : Int => Nat)) (current : World U),
      (entries.foldl (fun world entry => world.destroySession entry.2) current).toLifecycle =
        current.toLifecycle.destroyAll (entries.map Sigma.snd) := by
    intro entries
    induction entries with
    | nil => exact fun _ => rfl
    | cons entry rest ih => exact fun current => ih (current.destroySession entry.2)
  simp only [removeAllSession, folded]

theorem pending_split {world : World U} {index : Nat} {handler : Handler}
    (at_index : world.pending[index]? = some handler) :
    ∃ before after, world.pending = before ++ handler :: after ∧
      world.pending.eraseIdx index = before ++ after := by
  rcases List.getElem?_eq_some_iff.mp at_index with ⟨bound, atIndex⟩
  refine ⟨world.pending.take index, world.pending.drop (index + 1), ?_, ?_⟩
  · rw [← atIndex, List.cons_getElem_drop_succ, List.take_append_drop]
  · exact List.eraseIdx_eq_take_drop_succ world.pending index

theorem next_of_complete {world next : World U} {index : Nat} {completion : Completion}
    {handler : Handler} (at_index : world.pending[index]? = some handler)
    (steps : world.step callbacks (.complete index completion) = some next) :
    next = handle callbacks completion { world with pending := world.pending.eraseIdx index }
      handler := by
  simp only [step, at_index, Option.ite_none_right_eq_some, Option.some.injEq] at steps
  exact steps.2.symm

/-- What the completion of an operation does: its handler runs, and is no longer pending. -/
theorem complete_cases {world next : World U} {index : Nat} {completion : Completion}
    (steps : world.step callbacks (.complete index completion) = some next) :
    ∃ handler before after, world.pending[index]? = some handler ∧
      world.pending = before ++ handler :: after ∧
        world.pending.eraseIdx index = before ++ after ∧
          next = handle callbacks completion { world with pending := before ++ after }
            handler := by
  cases at_index : world.pending[index]? with
  | none => simp [step, at_index] at steps
  | some handler =>
      rcases pending_split at_index with ⟨before, after, split, others⟩
      refine ⟨handler, before, after, rfl, split, others, ?_⟩
      rw [← others]
      exact next_of_complete at_index steps

/-- Every step of the service from a sound state is a sequence of moves. -/
theorem step_moves {world next : World U} {label : Label} (sound : world.toLifecycle.Sound)
    (permitted : world.PermitsStep callbacks permission label)
    (steps : world.step callbacks label = some next) :
    Moves permission world.toLifecycle next.toLifecycle := by
  cases label with
  | complete index completion =>
      rcases complete_cases steps with ⟨handler, before, after, at_index, split, others, rfl⟩
      apply handle_moves sound split rfl
      rw [← others]
      exact permitted handler at_index
  | call call =>
      simp only [step, Option.some.injEq] at steps
      subst steps
      exact (perform_moves sound permitted).moves
  | tick seconds =>
      simp only [step, Option.some.injEq] at steps
      subst steps
      exact .refl
  | stop =>
      simp only [step, Option.some.injEq] at steps
      subst steps
      exact .single .stopped
  | removeAll =>
      simp only [step, Option.some.injEq] at steps
      subst steps
      rw [removeAllSession_toLifecycle]
      exact .single (.removedAll permitted.1 permitted.2)
  | release =>
      simp only [step, Option.ite_none_right_eq_some, Option.some.injEq] at steps
      rcases steps with ⟨_, rfl⟩
      exact .single (.released permitted)

theorem initial_sound (upper : U) : (initial upper).toLifecycle.Sound where
  fits := by simp [initial]
  compatible := List.Pairwise.nil
  mapped := by simp [initial]
  numbered := by simp [initial, Session.raw]
  owned := by simp [initial, Session.raw, Session.Owned]

theorem service_refines (callbacks : Callbacks U) (Upper : U → Prop) (permission : Permission) :
    Transition.Refines (service callbacks Upper) World.toLifecycle
      (fun world label => world.PermitsStep callbacks permission label) Sound
        (Move permission) where
  start := by
    rintro world ⟨upper, _, rfl⟩
    exact initial_sound upper
  step world label next sound permitted steps := step_moves sound permitted steps
  preserved before after move sound := sound.move move

theorem permitsStep_all (world : World U) (label : Label) :
    world.PermitsStep callbacks .all label := by
  have calls : ∀ calls, Permission.all.Calls calls := fun _ _ _ _ => trivial
  cases label with
  | complete index completion =>
      intro handler _
      cases handler with
      | handleAccept acceptor session => exact fun _ _ => ⟨trivial, calls _⟩
      | handleConnect connector session => exact ⟨fun _ _ => trivial, calls _⟩
      | handleReadSp session receive => exact fun _ _ _ _ => calls _
      | handleWrite session length => exact fun _ _ => calls _
      | handleExit session wait => exact fun _ => trivial
      | handleDestory session wait => exact .inl trivial
  | call call => exact fun _ => trivial
  | removeAll => exact ⟨.inl trivial, .inl trivial⟩
  | release => exact .inl trivial
  | tick seconds => trivial
  | stop => trivial

theorem sound_of_reachable {Upper : U → Prop} {world : World U}
    (reached : (service callbacks Upper).Reachable world) : world.toLifecycle.Sound := by
  apply (service_refines callbacks Upper .all).known
  exact reached.mono fun state label _ => permitsStep_all state label

/-- An invariant of all moves holds of every reachable state of the service. -/
theorem invariant_of_moves {Upper : U → Prop} {Inv : Lifecycle → Prop}
    (start : ∀ upper : U, Inv (initial upper).toLifecycle)
    (preserved : ∀ before after, Move .all before after → before.Sound → Inv before → Inv after)
    {world : World U} (reached : (service callbacks Upper).Reachable world) :
    world.toLifecycle.Sound ∧ Inv world.toLifecycle := by
  have refines := service_refines callbacks Upper .all
  have permitted := reached.mono fun state label _ => @permitsStep_all U callbacks state label
  have begins : ∀ state, (service callbacks Upper).Initial state → Inv state.toLifecycle := by
    rintro state ⟨upper, _, rfl⟩
    exact start upper
  exact ⟨sound_of_reachable reached, refines.invariant begins preserved permitted⟩

end World

end SunPush
