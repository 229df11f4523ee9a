import SunPush.Session.Refinement

/-!
# The receive of an open session

While the service runs, an open session has exactly one receive outstanding, and
the receive fits the session's counters.  The counters are compared with the
length that the header of the current message declared; that length is kept as a
history of the run, since the buffer it was read from is received into again.
-/

namespace SunPush

open CInteger

/-- The length the counters add up to: the one of the header, if it was a header that was received,
and the one they added up to before otherwise. -/
theorem ReadState.handleReadSp_declared {state : ReadState} {receive : Receive}
    (window : Window state receive) (msg : NetMsg) (wouldBlock : Bool) {declared : Nat}
    (counted : state = .expectHeader ∨ state.readOffset + state.readLeave = declared) :
    (state.handleReadSp msg (toSizeT receive.recvLength) wouldBlock).state = .expectHeader ∨
      (state.handleReadSp msg (toSizeT receive.recvLength) wouldBlock).state.readOffset +
          (state.handleReadSp msg (toSizeT receive.recvLength) wouldBlock).state.readLeave =
        (if state.readLeave = -1 then toUInt16 msg.dataLength else declared : Nat) := by
  rw [window.toSizeT_eq]
  cases window with
  | header _ =>
      rw [Int.toNat_natCast]
      rcases Nat.eq_zero_or_pos (toUInt16 msg.dataLength) with empty | positive
      · rw [handleReadSp_emptyHeader wouldBlock empty]
        exact .inl rfl
      · right
        rcases Nat.lt_or_ge maxMsgSize (toUInt16 msg.dataLength) with oversized | fits
        · rw [handleReadSp_discardHeader wouldBlock oversized]
          exact Int.zero_add _
        · rw [handleReadSp_bodyHeader wouldBlock positive fits]
          exact Int.zero_add _
  | body _ positive fits =>
      rw [Int.toNat_natCast, handleReadSp_body wouldBlock positive fits]
      exact .inl rfl
  | @discard _ leave offset positive oversized bounded =>
      have sum : (offset : Int) + leave = declared := by
        rcases counted with header | sum
        · have leaves := congrArg ReadState.readLeave header
          simp only [expectHeader] at leaves
          omega
        · exact sum
      have later : ¬(leave : Int) = -1 := by omega
      rw [if_neg later]
      rcases Nat.lt_or_ge maxMsgSize leave with more | last
      · have block : (min (leave : Int) maxMsgSize).toNat = maxMsgSize := by omega
        rw [block, handleReadSp_nextDiscard wouldBlock more bounded]
        right
        simp only
        omega
      · have block : (min (leave : Int) maxMsgSize).toNat = leave := by omega
        rw [block, handleReadSp_lastDiscard wouldBlock positive last oversized bounded]
        exact .inl rfl

theorem ReadState.Window.expectHeader_of_readLeave {state : ReadState} {receive : Receive}
    (window : Window state receive) (expects : state.readLeave = -1) : state = expectHeader := by
  cases window with
  | header _ => rfl
  | body _ positive _ => simp only at expects; omega
  | discard _ positive _ _ => simp only at expects; omega

namespace Lifecycle

/-- The receive counters of a session add up to the length that was declared, and the session has a
receive outstanding if it is open. -/
structure Receiving (life : Lifecycle) (declared : Nat) (session : Nat) : Prop where
  counted : (life.poolSession session).readState = .expectHeader ∨
    (life.poolSession session).readState.readOffset +
      (life.poolSession session).readState.readLeave = declared
  attended : life.stopSocketFlag = false → (life.poolSession session).alive = true →
    (life.poolSession session).socketStatus = .connected →
      ∃ receive, .handleReadSp session receive ∈ life.pending

namespace Receiving

variable {life next : Lifecycle} {declared session : Nat}

/-- Nothing happens to the session, and its receives stay. -/
theorem keep (receiving : life.Receiving declared session)
    (fields : next.poolSession session = life.poolSession session)
    (flag : next.stopSocketFlag = life.stopSocketFlag)
    (kept : ∀ receive, .handleReadSp session receive ∈ life.pending →
      .handleReadSp session receive ∈ next.pending) : next.Receiving declared session := by
  constructor
  · rw [fields]
    exact receiving.counted
  · rw [fields, flag]
    intro running alive connected
    rcases receiving.attended running alive connected with ⟨receive, outstanding⟩
    exact ⟨receive, kept receive outstanding⟩

/-- A session that is not open needs no receive. -/
theorem unopened
    (counted : (next.poolSession session).readState = .expectHeader ∨
      (next.poolSession session).readState.readOffset +
        (next.poolSession session).readState.readLeave = declared)
    (unopened : (next.poolSession session).alive = true →
      (next.poolSession session).socketStatus ≠ .connected) : next.Receiving declared session :=
  ⟨counted, fun _ alive connected => absurd connected (unopened alive)⟩

theorem mem_cancel {pending : List Handler} {receive : Receive} (target : Nat)
    (mem : .handleReadSp session receive ∈ pending) :
    .handleReadSp session receive ∈ pending.map (Handler.cancel target) :=
  List.mem_map.mpr ⟨_, mem, rfl⟩

theorem cancel (receiving : life.Receiving declared session) (target : Nat) :
    (life.cancel target).Receiving declared session :=
  receiving.keep rfl rfl fun _ mem => mem_cancel target mem

theorem queue (receiving : life.Receiving declared session) (handler : Handler) :
    (life.queue handler).Receiving declared session :=
  receiving.keep rfl rfl fun _ mem => List.mem_append_left _ mem

theorem setSession (receiving : life.Receiving declared session) {target : Nat}
    (other : session ≠ target) (fields : Session) :
    (life.setSession target fields).Receiving declared session :=
  receiving.keep (Function.update_of_ne other _ _) rfl fun _ mem => mem

theorem destroy (receiving : life.Receiving declared session) (target : Nat) :
    (life.destroy target).Receiving declared session := by
  apply Receiving.cancel
  by_cases same : session = target
  · subst same
    apply unopened
    · simp only [Lifecycle.setSession, Function.update_self]
      exact receiving.counted
    · simp [Lifecycle.setSession, Session.destruct]
  · have used : (life.use target).Receiving declared session :=
      receiving.keep rfl rfl fun _ mem => mem
    exact used.setSession same _

theorem destroyAll (receiving : life.Receiving declared session) (targets : List Nat) :
    (life.destroyAll targets).Receiving declared session := by
  induction targets generalizing life with
  | nil => exact receiving
  | cons first rest ih => exact ih (receiving.destroy first)

theorem exit (receiving : life.Receiving declared session) (target : Nat) (due : Int) :
    (life.exit target due).Receiving declared session := by
  by_cases same : session = target
  · subst same
    apply unopened
    · simp only [exit_poolSession, Function.update_self]
      exact receiving.counted
    · simp [closed]
  · apply receiving.keep
    · rw [exit_poolSession, Function.update_of_ne same]
    · exact exit_stopSocketFlag life target due
    · intro receive mem
      rcases exit_pending life target due with unchanged | replaced
      · rwa [unchanged]
      · rw [replaced]
        exact List.mem_append_left _ (mem_cancel target mem)

/-- A session that is allocated is not open, and expects a header. -/
theorem allocate (receiving : life.Receiving declared session) {fields : Session}
    (expects : fields.readState = .expectHeader) (unopened : fields.socketStatus ≠ .connected)
    (handler : Handler) : ((life.allocate fields).queue handler).Receiving declared session := by
  apply Receiving.queue
  by_cases same : session = life.currentConnexindex + 1
  · subst same
    apply Receiving.unopened
    · simp only [Lifecycle.allocate, Function.update_self]
      exact .inl expects
    · simp only [Lifecycle.allocate, Function.update_self]
      exact fun _ => unopened
  · exact receiving.keep (Function.update_of_ne same _ _) rfl fun _ mem => mem

theorem apiMove {permission : Permission} (receiving : life.Receiving declared session)
    (move : ApiMove permission life next) : next.Receiving declared session := by
  cases move with
  | noted event notes => exact receiving.keep rfl rfl fun _ mem => mem
  | cancelled target => exact receiving.cancel target
  | queued handler queues mapped => exact receiving.queue handler
  | exited target due notClosed opened numbered touched permitted => exact receiving.exit target due
  | listening acceptor => exact receiving.allocate rfl SocketStatus.noConfusion _
  | connecting connector => exact receiving.allocate rfl SocketStatus.noConfusion _

theorem apiMoves {permission : Permission} (receiving : life.Receiving declared session)
    (moves : ApiMoves permission life next) : next.Receiving declared session := by
  apply Transition.preserved_of_moves _ moves receiving
  intro before after move holds
  exact holds.apiMove move

/-- A handler is taken that is no receive of the session. -/
theorem take (receiving : life.Receiving declared session) {handler : Handler}
    {before after : List Handler} (split : life.pending = before ++ handler :: after)
    (other : handler.receives = true → handler.session ≠ session) :
    (life.take (before ++ after)).Receiving declared session := by
  refine receiving.keep rfl rfl fun receive mem => ?_
  rw [split] at mem
  rcases List.mem_append.mp mem with earlier | later
  · exact List.mem_append_left _ earlier
  · rcases List.mem_cons.mp later with same | behind
    · exact absurd (congrArg Handler.session same).symm (other (same ▸ rfl))
    · exact List.mem_append_right _ behind

end Receiving

end Lifecycle

namespace World

open Lifecycle

variable {U : Type} {callbacks : Callbacks U} {declared session : Nat}

/-! ## The functions of the source -/

/-- A session that is started has its receive, whatever happened to it before. -/
theorem receiving_start {world : World U} {target : Nat}
    (receiving : session ≠ target → world.toLifecycle.Receiving declared session) :
    (world.start target).toLifecycle.Receiving declared session := by
  by_cases same : session = target
  · subst same
    constructor
    · left
      simp [start, receiveSp, post, use, modify]
    · exact fun _ _ _ => ⟨receiveHeader, List.mem_append_right _ List.mem_cons_self⟩
  · exact (receiving same).keep (Function.update_of_ne same _ _) rfl fun _ mem =>
      List.mem_append_left _ mem

theorem receiving_openSession {world : World U} {target : Nat} (other : session ≠ target)
    (receiving : world.toLifecycle.Receiving declared session) (change : Session → Session) :
    (world.openSession target change).toLifecycle.Receiving declared session :=
  receiving.keep (Function.update_of_ne other _ _) rfl fun _ mem => mem

theorem receiving_performAll {world : World U} {result : U × List ApiCall}
    (sound : world.toLifecycle.Sound) (receiving : world.toLifecycle.Receiving declared session) :
    (world.performAll callbacks result).toLifecycle.Receiving declared session :=
  receiving.apiMoves (@performAll_moves U callbacks .all _ _ sound fun _ _ _ => trivial)

theorem receiving_handleExit {world : World U} {target : Nat}
    (receiving : world.toLifecycle.Receiving declared session) :
    (world.handleExit callbacks target).toLifecycle.Receiving declared session := by
  have used : (world.use target).toLifecycle.Receiving declared session :=
    receiving.keep rfl rfl fun _ mem => mem
  by_cases closed : (world.poolSession target).isClosed = true
  · rw [handleExit_of_closed closed]
    exact used
  · rw [handleExit_of_notClosed closed]
    exact used.exit target _

theorem receiving_acceptNext {world : World U} (acceptor : Nat) (memory : Bool)
    (receiving : world.toLifecycle.Receiving declared session) :
    (world.acceptNext acceptor memory).toLifecycle.Receiving declared session := by
  cases memory with
  | false => exact receiving
  | true => exact receiving.allocate rfl SocketStatus.noConfusion _

section Handlers

variable {life : Lifecycle} {world : World U} {before after : List Handler}
  {completion : Completion}

theorem receiving_acceptClient {acceptor target : Nat} {memory : Bool} (sound : life.Sound)
    (split : life.pending = before ++ .handleAccept acceptor target :: after)
    (taken : world.toLifecycle = life.take (before ++ after))
    (receiving : world.toLifecycle.Receiving declared session) :
    (world.acceptClient callbacks acceptor target memory).toLifecycle.Receiving declared
      session := by
  have move := @Move.accepted .all life acceptor target before after split trivial
  rw [← announced_toLifecycle sound split taken] at move
  rw [acceptClient_eq sound split taken]
  apply receiving_start
  intro other
  apply receiving_performAll (sound.move move)
  have opened := receiving_openSession other receiving fun s =>
    { s with socketStatus := .connected, acceptor := some acceptor }
  exact opened.keep rfl rfl fun _ mem => mem

theorem receiving_handleAccept {acceptor target : Nat} (sound : life.Sound)
    (split : life.pending = before ++ .handleAccept acceptor target :: after)
    (taken : world.toLifecycle = life.take (before ++ after))
    (receiving : world.toLifecycle.Receiving declared session) :
    (world.handleAccept callbacks acceptor target completion).toLifecycle.Receiving declared
      session := by
  by_cases failed : completion.error = 0
  · simp only [handleAccept, failed, ne_eq, not_true_eq_false, if_false]
    apply receiving_acceptNext
    cases completion.remoteError with
    | true => exact receiving_handleExit receiving
    | false => exact receiving_acceptClient sound split taken receiving
  · simp only [handleAccept, ne_eq, failed, not_false_eq_true, if_true]
    exact receiving.destroy target

/-- A session whose connection attempt failed is not open, and is destroyed. -/
theorem receiving_failed {connector target : Nat} {errorCode : Int} {refused : World U}
    (sound : life.Sound)
    (split : life.pending = before ++ .handleConnect connector target :: after)
    (refusal : refused.toLifecycle = ((life.take (before ++ after)).setSession target
      { life.poolSession target with socketStatus := .error }).destroy target)
    (receiving : (life.take (before ++ after)).Receiving declared session) :
    (refused.onConnect callbacks connector target errorCode).toLifecycle.Receiving declared
      session := by
  have move := @Move.failed .all life connector target before after split trivial
  have used : (refused.use target).toLifecycle =
      (((life.take (before ++ after)).setSession target
        { life.poolSession target with socketStatus := .error }).destroy target).use target := by
    rw [← refusal]
    rfl
  rw [← used] at move
  have marked : ((life.take (before ++ after)).setSession target
      { life.poolSession target with socketStatus := .error }).Receiving declared session := by
    by_cases same : session = target
    · subst same
      apply Receiving.unopened
      · simp only [setSession, Function.update_self]
        exact receiving.counted
      · simp [setSession]
    · exact receiving.setSession same _
  have destroyed : (refused.use target).toLifecycle.Receiving declared session := by
    rw [used]
    exact (marked.destroy target).keep rfl rfl fun _ mem => mem
  have tells : ApiMoves .all (refused.use target).toLifecycle
      (refused.onConnect callbacks connector target errorCode).toLifecycle :=
    callback_moves (sound.move move) trivial fun _ _ _ => trivial
  exact destroyed.apiMoves tells

theorem receiving_handleConnect {connector target : Nat} (sound : life.Sound)
    (split : life.pending = before ++ .handleConnect connector target :: after)
    (taken : world.toLifecycle = life.take (before ++ after))
    (receiving : world.toLifecycle.Receiving declared session) :
    (world.handleConnect callbacks connector target completion).toLifecycle.Receiving declared
      session := by
  by_cases failed : completion.error = 0
  · have opens := @connected_moves U .all life world before after connector target sound split taken
    simp only [handleConnect, failed, ne_eq, not_true_eq_false, if_false]
    have started : ((world.openSession target fun s =>
        { s with socketStatus := .connected }).start target).toLifecycle.Receiving declared
          session :=
      receiving_start fun other => receiving_openSession other receiving _
    generalize (world.openSession target fun s => { s with socketStatus := .connected }) = current
      at opens started ⊢
    have tells := @onConnect_moves U callbacks .all (current.start target) connector target 0
      (sound.moves opens) (start_keeps target current).1 fun _ _ _ => trivial
    exact started.apiMoves tells
  · by_cases stopped : world.stopSocketFlag = true
    · simp only [handleConnect, ne_eq, failed, not_false_eq_true, if_true, stopped]
      exact receiving
    · simp only [handleConnect, ne_eq, failed, not_false_eq_true, if_true, stopped]
      have pool : world.poolSession = life.poolSession := by rw [taken]; rfl
      have unused : (world.count fun s =>
          { s with totalConnecting := s.totalConnecting - 1 }).use target =
            world.count fun s => { s with totalConnecting := s.totalConnecting - 1 } :=
        use_of_touched fun _ => pool ▸ (sound.fits_of_split split).2.1
      apply receiving_failed sound split _ (taken ▸ receiving)
      rw [unused, ← pool, ← taken]
      rfl

theorem receiving_handleWrite {target : Nat} {length : Int} (sound : world.toLifecycle.Sound)
    (receiving : world.toLifecycle.Receiving declared session) :
    (world.handleWrite callbacks target length completion).toLifecycle.Receiving declared
      session := by
  have used : (world.use target).toLifecycle.Receiving declared session :=
    receiving.keep rfl rfl fun _ mem => mem
  simp only [handleWrite]
  split
  · exact used
  · have reports := @onSend_moves U callbacks .all (world.use target) target length
      (sound.use target) (touched_use world.toLifecycle target) fun _ _ _ _ _ => trivial
    exact used.apiMoves reports

theorem receiving_finishReadSp {target : Nat} {state : ReadState} {outcome : ReadOutcome}
    {next : Receive} (sound : world.toLifecycle.Sound)
    (awaits : world.toLifecycle.Awaits target state) (stays : outcome.exit = false)
    (posts : outcome.receive = some next)
    (counted : session = target → outcome.state = .expectHeader ∨
      outcome.state.readOffset + outcome.state.readLeave = declared)
    (receiving : session ≠ target → world.toLifecycle.Receiving declared session) :
    (world.finishReadSp callbacks target outcome).toLifecycle.Receiving declared session := by
  rcases @reread_moves U .all world target state outcome.state awaits with ⟨reread, rereads⟩
  have others (other : session ≠ target) : (world.modify target fun s =>
      { s with readState := outcome.state }).toLifecycle.Receiving declared session :=
    (receiving other).setSession other _
  simp only [finishReadSp, stays, posts, Bool.false_eq_true, if_false]
  generalize (world.modify target fun s => { s with readState := outcome.state }) = current
    at reread rereads others ⊢
  have delivers : ApiMoves .all current.toLifecycle
      (current.deliver callbacks target outcome.deliver).toLifecycle :=
    deliver_moves (sound.moves reread) rereads.touched fun _ _ _ _ _ _ _ => trivial
  by_cases same : session = target
  · subst same
    constructor
    · have state := (rereads.apiMoves delivers).readState
      have fields : ((current.deliver callbacks session outcome.deliver).receiveSp session
          next).poolSession = (current.deliver callbacks session outcome.deliver).poolSession := rfl
      rw [fields, state]
      exact counted rfl
    · exact fun _ _ _ => ⟨next, List.mem_append_right _ List.mem_cons_self⟩
  · exact ((others same).apiMoves delivers).keep rfl rfl fun _ mem => List.mem_append_left _ mem

/-- The length that the header declares, if it is a header that has been received. -/
def redeclared (life : Lifecycle) (target : Nat) (receive : Receive) (completion : Completion)
    (declared : Nat) : Nat :=
  if (life.poolSession target).readState.readLeave = -1 then
    toUInt16 (receive.msg.place receive.recvOffset completion.bytes).dataLength
  else declared

/-- A header is received only when one is expected, so the counters have counted nothing then. -/
theorem counted_redeclared {receive : Receive}
    (window : ReadState.Window (life.poolSession session).readState receive)
    (receiving : life.Receiving declared session) (completion : Completion) :
    (life.poolSession session).readState = .expectHeader ∨
      (life.poolSession session).readState.readOffset +
          (life.poolSession session).readState.readLeave =
        redeclared life session receive completion declared := by
  by_cases expects : (life.poolSession session).readState.readLeave = -1
  · exact .inl (window.expectHeader_of_readLeave expects)
  · rw [redeclared, if_neg expects]
    exact receiving.counted

/-- The session of the receive itself. -/
theorem receiving_handleReadSp {receive : Receive} (sound : life.Sound)
    (split : life.pending = before ++ .handleReadSp session receive :: after)
    (taken : world.toLifecycle = life.take (before ++ after))
    (receiving : life.Receiving declared session) :
    (world.handleReadSp callbacks session receive completion).toLifecycle.Receiving
      (redeclared life session receive completion declared) session := by
  have window : ReadState.Window (life.poolSession session).readState receive :=
    (sound.fits_of_split split).2
  have recounted := counted_redeclared window receiving completion
  have counted : (world.countRecv receive).toLifecycle = life.take (before ++ after) := taken
  rcases @handleReadSp_cases U callbacks .all life world before after completion session receive
    sound split taken with
    ⟨stopped, unchanged⟩ | ⟨starts, ⟨closed, used⟩ | ⟨outcome, next, decides, finishes⟩⟩
  · rw [unchanged]
    constructor
    · rwa [counted]
    · intro running
      rw [stopped] at running
      contradiction
  · rw [used]
    apply Receiving.unopened
    · have pool : ((world.countRecv receive).use session).poolSession = life.poolSession := by
        change (world.countRecv receive).poolSession = _
        rw [counted]
        rfl
      rwa [pool]
    · intro _ connected
      have status : ((world.countRecv receive).poolSession session).socketStatus = .connected :=
        connected
      simp [Session.isClosed, status] at closed
  · rw [finishes]
    apply receiving_finishReadSp (sound.moves starts) decides.awaits decides.stays decides.posts
    · intro _
      rw [decides.decided]
      exact ReadState.handleReadSp_declared window _ _ receiving.counted
    · exact fun other => absurd rfl other

theorem receiving_handleReadSp_other {target : Nat} {receive : Receive} (sound : life.Sound)
    (split : life.pending = before ++ .handleReadSp target receive :: after)
    (taken : world.toLifecycle = life.take (before ++ after)) (other : session ≠ target)
    (receiving : world.toLifecycle.Receiving declared session) :
    (world.handleReadSp callbacks target receive completion).toLifecycle.Receiving declared
      session := by
  have stays : (world.countRecv receive).toLifecycle.Receiving declared session := receiving
  have used : ((world.countRecv receive).use target).toLifecycle.Receiving declared session :=
    stays.keep rfl rfl fun _ mem => mem
  rcases @handleReadSp_cases U callbacks .all life world before after completion target receive
    sound split taken with
    ⟨_, unchanged⟩ | ⟨starts, ⟨_, uses⟩ | ⟨outcome, next, decides, finishes⟩⟩
  · rw [unchanged]
    exact stays
  · rw [uses]
    exact used
  · rw [finishes]
    apply receiving_finishReadSp (sound.moves starts) decides.awaits decides.stays decides.posts
    · exact fun same => absurd same other
    · exact fun _ => used

end Handlers

/-! ## Runs -/

/-- The declared lengths when a handler runs: a header that has been received declares a new one. -/
def declareBy (declared : Nat → Nat) (life : Lifecycle) (completion : Completion) :
    Handler → Nat → Nat
  | .handleReadSp target receive =>
      Function.update declared target
        (redeclared life target receive completion (declared target))
  | _ => declared

/-- The declared lengths after a step. -/
def declare (declared : Nat → Nat) (world : World U) : Label → Nat → Nat
  | .complete index completion =>
      match world.pending[index]? with
      | some handler => declareBy declared world.toLifecycle completion handler
      | none => declared
  | _ => declared

/-- The service, with the declared length of the current message of every session as a history. -/
def declaringService (callbacks : Callbacks U) (Upper : U → Prop) :
    Transition.System (World U × (Nat → Nat)) Label :=
  (service callbacks Upper).withHistory (fun _ => 0) declare

theorem receiving_step {world next : World U} {label : Label} {declared : Nat → Nat}
    (sound : world.toLifecycle.Sound) (steps : world.step callbacks label = some next)
    (receiving : world.toLifecycle.Receiving (declared session) session) :
    next.toLifecycle.Receiving (declare declared world label session) session := by
  cases label with
  | complete index completion =>
      rcases complete_cases steps with ⟨handler, before, after, at_index, split, _, rfl⟩
      simp only [declare, at_index]
      cases handler with
      | handleReadSp target receive =>
          by_cases same : session = target
          · subst same
            rw [declareBy, Function.update_self]
            exact receiving_handleReadSp sound split rfl receiving
          · rw [declareBy, Function.update_of_ne same]
            exact receiving_handleReadSp_other sound split rfl same
              (receiving.take split fun _ => Ne.symm same)
      | handleAccept acceptor target =>
          exact receiving_handleAccept sound split rfl (receiving.take split Bool.noConfusion)
      | handleConnect connector target =>
          exact receiving_handleConnect sound split rfl (receiving.take split Bool.noConfusion)
      | handleWrite target length =>
          exact receiving_handleWrite (sound.take (sublist_of_split split))
            (receiving.take split Bool.noConfusion)
      | handleExit target wait => exact receiving_handleExit (receiving.take split Bool.noConfusion)
      | handleDestory target wait => exact (receiving.take split Bool.noConfusion).destroy target
  | call call =>
      simp only [step, Option.some.injEq] at steps
      subst steps
      exact receiving.apiMoves (@perform_moves U callbacks .all _ call sound fun _ => trivial)
  | tick seconds =>
      simp only [step, Option.some.injEq] at steps
      subst steps
      exact receiving
  | stop =>
      simp only [step, Option.some.injEq] at steps
      subst steps
      exact ⟨receiving.counted, Bool.noConfusion⟩
  | removeAll =>
      simp only [step, Option.some.injEq] at steps
      subst steps
      rw [removeAllSession_toLifecycle]
      exact (receiving.destroyAll _).keep rfl rfl fun _ mem => mem
  | release =>
      simp only [step, Option.ite_none_right_eq_some, Option.some.injEq] at steps
      rcases steps with ⟨_, rfl⟩
      exact .unopened receiving.counted Bool.noConfusion

theorem receiving_of_reachable {Upper : U → Prop} {both : World U × (Nat → Nat)}
    (reached : (declaringService callbacks Upper).Reachable both) (session : Nat) :
    both.1.toLifecycle.Sound ∧ both.1.toLifecycle.Receiving (both.2 session) session := by
  refine ⟨sound_of_reachable (reached.forget fun _ _ _ => trivial), ?_⟩
  let receives (world : World U) (declared : Nat → Nat) : Prop :=
    world.toLifecycle.Receiving (declared session) session
  have starts : ∀ world, (service callbacks Upper).Initial world → receives world fun _ => 0 := by
    rintro world ⟨upper, _, rfl⟩
    exact ⟨.inl rfl, fun _ alive => Bool.noConfusion alive⟩
  refine reached.history_invariant (fun _ _ _ => trivial) (fun _ => sound_of_reachable) starts ?_
  intro world declared label next sound receiving _ steps
  exact receiving_step sound steps receiving

/-! ## The outstanding receive -/

/-- The receive of the session that a handler completes. -/
def receiveOf (session : Nat) : Handler → Option Receive
  | .handleReadSp target receive => if target = session then some receive else none
  | _ => none

theorem of_receiveOf {handler : Handler} {receive : Receive}
    (receives : receiveOf session handler = some receive) :
    ∃ target, handler = .handleReadSp target receive ∧ target = session := by
  cases handler with
  | handleReadSp target other =>
      simp only [receiveOf, Option.ite_none_right_eq_some, Option.some.injEq] at receives
      exact ⟨target, congrArg _ receives.2, receives.1⟩
  | _ => contradiction

/-- The receives of a session that have not completed yet. -/
def outstanding (world : World U) (session : Nat) : List Receive :=
  world.pending.filterMap (receiveOf session)

theorem not_expectHeader {leave : Nat} {offset : Int} (positive : 0 < leave) :
    ReadState.mk leave offset ≠ .expectHeader := by
  intro same
  have leaves : (leave : Int) = -1 := congrArg ReadState.readLeave same
  omega

/-- The session is connected, and `StopSocketService` has not been called. -/
structure Opened (world : World U) (session : Nat) : Prop where
  running : world.stopSocketFlag = false
  alive : (world.poolSession session).alive = true
  connected : (world.poolSession session).socketStatus = .connected

/-- Exactly one receive is outstanding, into a window of the buffer, and the window is that of a
header or a part of what is left of the current message. -/
def ReceivesOnce (world : World U) (declared : Nat → Nat) (session : Nat) : Prop :=
  ∃ receive, world.outstanding session = [receive] ∧
    0 ≤ receive.recvOffset ∧ 0 < receive.recvLength ∧
    receive.recvOffset + receive.recvLength ≤ maxMsgSize ∧
    let state := (world.poolSession session).readState
    (state.readLeave = -1 ∧ receive.recvOffset = 0 ∧ receive.recvLength = 4 ∨
      1 ≤ receive.recvLength ∧ receive.recvLength ≤ state.readLeave ∧
        state.readOffset + state.readLeave = declared session)

theorem outstanding_eq_singleton {world : World U} {receive : Receive}
    (sound : world.toLifecycle.Sound)
    (pending : .handleReadSp session receive ∈ world.pending) :
    world.outstanding session = [receive] := by
  have lone : (world.outstanding session).Pairwise fun _ _ => False := by
    apply sound.compatible.filterMap
    intro left right compatible receive receives other otherReceives
    rcases of_receiveOf receives with ⟨target, rfl, rfl⟩
    rcases of_receiveOf otherReceives with ⟨_, rfl, same⟩
    exact (compatible same.symm).2.2 ⟨rfl, rfl⟩
  have mem : receive ∈ world.outstanding session :=
    List.mem_filterMap.mpr ⟨_, pending, if_pos rfl⟩
  cases found : world.outstanding session with
  | nil =>
      rw [found] at mem
      contradiction
  | cons first rest =>
      rw [found, List.pairwise_cons] at lone
      have alone : rest = [] := List.eq_nil_iff_forall_not_mem.mpr lone.1
      rw [found, alone, List.mem_singleton] at mem
      rw [alone, mem]

theorem receivesOnce_of_opened {Upper : U → Prop} {both : World U × (Nat → Nat)}
    (reached : (declaringService callbacks Upper).Reachable both)
    (opened : both.1.Opened session) : both.1.ReceivesOnce both.2 session := by
  rcases receiving_of_reachable reached session with ⟨sound, receiving⟩
  rcases receiving.attended opened.running opened.alive opened.connected with ⟨receive, pending⟩
  have window : ReadState.Window (both.1.poolSession session).readState receive :=
    (sound.fits _ pending).2
  rcases window.bounds with ⟨offset, nonempty, inside⟩
  refine ⟨receive, outstanding_eq_singleton sound pending, by omega, by omega, by omega, ?_⟩
  have counted := receiving.counted
  generalize (both.1.poolSession session).readState = state at window counted
  cases window with
  | header msg => exact .inl ⟨rfl, rfl, rfl⟩
  | body msg positive fits =>
      have sum := counted.resolve_left (not_expectHeader positive)
      exact .inr ⟨nonempty, Int.le_refl _, sum⟩
  | discard msg positive oversized bounded =>
      have sum := counted.resolve_left (not_expectHeader positive)
      exact .inr ⟨nonempty, Int.min_le_left _ _, sum⟩

/-- A client is accepted, and the header of a message of 10000 bytes is received from it. -/
theorem receivesOnce_after_header :
    ∃ both : World Unit × (Nat → Nat), both.2 2 = 10000 ∧
      (both.1.poolSession 2).readState = ⟨10000, 0⟩ ∧ both.1.ReceivesOnce both.2 2 := by
  have starts : (declaringService .silent fun _ => True).Initial (initial (), fun _ => 0) :=
    ⟨⟨(), trivial, rfl⟩, rfl⟩
  have runs : ∃ both, (declaringService .silent fun _ => True).run (initial (), fun _ => 0)
      [.call (.startListen 0 true), .complete 0 (.success []),
        .complete 0 (.success [0x10, 0x27, 0, 0])] = some both ∧ both.2 2 = 10000 ∧
          (both.1.poolSession 2).readState = ⟨10000, 0⟩ ∧ both.1.Opened 2 :=
    ⟨_, rfl, by decide, by decide, rfl, rfl, rfl⟩
  rcases runs with ⟨both, runs, declared, state, opened⟩
  have reached := Transition.System.reachable_of_run starts runs
  exact ⟨both, declared, state, receivesOnce_of_opened reached opened⟩

end World

end SunPush
