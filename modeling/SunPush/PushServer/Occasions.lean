import SunPush.PushServer.Disclosure
import SunPush.PushServer.Tracking
import SunPush.Session.Closing

/-!
# The push server on its socket layer is the component

`Disclosure` looks at the push server as a component that reacts to occasions,
and what a client sees of it is told in these terms.  Here the component meets
the service: every step of the service makes at most one callback, on the
occasion that the step gives, and the frames that the service's calls put on the
sockets are the outputs of the component.

The server's own threads never call `Send`, so runs in which a thread does are
left out.
-/

namespace SunPush

open CInteger Noninterference

namespace World

variable {U : Type} {callbacks : Callbacks U}

/-! ## The upper layer after a step -/

section Upper

variable (closes : ∀ owner connIndex upper, callbacks.onClose owner connIndex upper = upper)

include closes

theorem upper_keep (upper : U) (owner : Owner) (connIndex : Int) (other : U)
    (same : other = upper) : callbacks.onClose owner connIndex other = upper :=
  (closes owner connIndex other).trans same

theorem upper_performAll (world : World U) (result : U × List ApiCall) :
    (world.performAll callbacks result).upper = result.1 :=
  performAll_upper (upper_keep closes result.1) rfl

theorem upper_handleExit (world : World U) (session : Nat) :
    (world.handleExit callbacks session).upper = world.upper :=
  handleExit_upper (upper_keep closes world.upper) session rfl

theorem upper_handleAccept (acceptor session : Nat) (completion : Completion) (world : World U) :
    (world.handleAccept callbacks acceptor session completion).upper =
      (world.callsOf callbacks completion (.handleAccept acceptor session)).1.upper := by
  by_cases failed : completion.error = 0
  · simp only [handleAccept, callsOf, failed, ne_eq, not_true_eq_false, if_false, false_or,
      acceptNext_upper]
    cases completion.remoteError with
    | true => exact upper_handleExit closes _ session
    | false =>
        have connIndex : ((((world.count fun s =>
            { s with totalConneced := s.totalConneced + 1 }).openSession session fun s =>
              { s with socketStatus := .connected, acceptor := some acceptor }).use
                session).poolSession session).connIndex =
                  (world.poolSession session).connIndex := by
          simp [openSession, use, modify, updateSession, count]
        simp only [Bool.false_eq_true, if_false, acceptClient, onAccept, connIndex]
        exact upper_performAll closes _ _
  · simp only [handleAccept, callsOf, ne_eq, failed, not_false_eq_true, if_true, true_or]
    rfl

theorem upper_onConnect (connector session : Nat) (errorCode : Int) (world : World U) :
    (world.onConnect callbacks connector session errorCode).upper =
      (world.callsOnConnect callbacks connector session errorCode).1.upper :=
  upper_performAll closes _ _

theorem upper_handleConnect (connector session : Nat) (completion : Completion)
    (world : World U) :
    (world.handleConnect callbacks connector session completion).upper =
      (world.callsOf callbacks completion (.handleConnect connector session)).1.upper := by
  by_cases failed : completion.error = 0
  · simp only [handleConnect, callsOf, failed, ne_eq, not_true_eq_false, if_false, if_true]
    exact upper_onConnect closes connector session 0 _
  · simp only [handleConnect, callsOf, failed, ne_eq, not_false_eq_true, if_false, if_true]
    split
    · rfl
    · exact upper_onConnect closes connector session completion.error _

theorem upper_deliver (session : Nat) (message : Option (NetMsg × Int)) (world : World U) :
    (world.deliver callbacks session message).upper =
      (world.callsOnRead callbacks session message).1.upper := by
  rcases message with _ | ⟨msg, length⟩
  · rfl
  · have owner : (((world.count fun s =>
        { s with totalMsgRecvCount := s.totalMsgRecvCount + 1 }).use session).poolSession
          session).owner = (world.poolSession session).owner := rfl
    simp only [deliver, onReadComplete, callsOnRead, owner]
    cases (world.poolSession session).owner with
    | none => rfl
    | some owner => exact upper_performAll closes _ _

theorem upper_handleReadSp (session : Nat) (receive : Receive) (completion : Completion)
    (world : World U) :
    (world.handleReadSp callbacks session receive completion).upper =
      (world.callsOf callbacks completion (.handleReadSp session receive)).1.upper := by
  have finishes (outcome : ReadOutcome) (current : World U) :
      (current.finishReadSp callbacks session outcome).upper =
        ((current.modify session fun s => { s with readState := outcome.state }).callsOnRead
          callbacks session outcome.deliver).1.upper := by
    rw [← upper_deliver closes]
    rcases outcome with ⟨state, deliver, _ | posted, _ | _⟩
    · rfl
    · exact upper_handleExit closes _ session
    · rfl
    · exact upper_handleExit closes _ session
  simp only [handleReadSp, callsOf]
  by_cases stopped : world.stopSocketFlag = true
  · have flag : (world.count fun s =>
        { s with totalDataRecv := s.totalDataRecv + receive.recvLength }).stopSocketFlag =
          true := stopped
    rw [if_pos flag, if_pos (.inl stopped)]
    rfl
  · have flag : ¬(world.count fun s =>
        { s with totalDataRecv := s.totalDataRecv + receive.recvLength }).stopSocketFlag =
          true := stopped
    rw [if_neg flag]
    by_cases closed : (world.poolSession session).isClosed = true
    · have used : (((world.count fun s =>
          { s with totalDataRecv := s.totalDataRecv + receive.recvLength }).use
            session).poolSession session).isClosed = true := closed
      rw [if_pos used, if_pos (.inr closed)]
      rfl
    · have used : ¬(((world.count fun s =>
          { s with totalDataRecv := s.totalDataRecv + receive.recvLength }).use
            session).poolSession session).isClosed = true := closed
      have reads : ¬(world.stopSocketFlag = true ∨ (world.poolSession session).isClosed = true) :=
        not_or.mpr ⟨stopped, closed⟩
      rw [if_neg used, if_neg reads]
      exact finishes _ _

theorem upper_handleWrite (session : Nat) (length : Int) (completion : Completion)
    (world : World U) :
    (world.handleWrite callbacks session length completion).upper =
      (world.callsOf callbacks completion (.handleWrite session length)).1.upper := by
  have closed : ((world.use session).poolSession session).isClosed =
      (world.poolSession session).isClosed := rfl
  have owner : (((world.use session).use session).poolSession session).owner =
      (world.poolSession session).owner := rfl
  simp only [handleWrite, callsOf, closed]
  split
  · rfl
  · have owned : ((world.use session).poolSession session).owner =
        (world.poolSession session).owner := rfl
    simp only [onSend, callsOnSend, owner, owned, count]
    cases (world.poolSession session).owner with
    | none => rfl
    | some owner => exact upper_performAll closes _ _

theorem upper_handle (completion : Completion) (world : World U) (handler : Handler) :
    (handle callbacks completion world handler).upper =
      (world.callsOf callbacks completion handler).1.upper := by
  cases handler with
  | handleAccept acceptor session => exact upper_handleAccept closes acceptor session _ world
  | handleConnect connector session => exact upper_handleConnect closes connector session _ world
  | handleReadSp session receive => exact upper_handleReadSp closes session receive _ world
  | handleWrite session length => exact upper_handleWrite closes session length _ world
  | handleExit session wait => exact upper_handleExit closes world session
  | handleDestory session wait => rfl

/-- Where `OnClose` changes nothing, the upper layer is after a step what it was when the calls of
the step began. -/
theorem upper_step {world next : World U} {label : Label}
    (steps : world.step callbacks label = some next) :
    next.upper = (world.calls callbacks label).1.upper := by
  cases label with
  | complete index completion =>
      rcases complete_cases steps with ⟨handler, before, after, at_index, split, others, rfl⟩
      simp only [calls, at_index, others]
      exact upper_handle closes completion _ handler
  | call request =>
      simp only [step, Option.some.injEq] at steps
      subst steps
      exact perform_upper (upper_keep closes world.upper) request rfl
  | removeAll =>
      simp only [step, Option.some.injEq] at steps
      subst steps
      exact removeAllSession_upper world
  | release =>
      simp only [step, Option.ite_none_right_eq_some, Option.some.injEq] at steps
      rcases steps with ⟨_, rfl⟩
      rfl
  | tick seconds =>
      simp only [step, Option.some.injEq] at steps
      subst steps
      rfl
  | stop =>
      simp only [step, Option.some.injEq] at steps
      subst steps
      rfl

end Upper

/-! ## What is put on the sockets -/

/-- What a call puts on a socket: the connection it names and the payload, if a session that is not
closed is found for it.  `beyond` is what the rest of the send buffer holds. -/
def puts (beyond : Memory) (world : World U) : ApiCall → List (Int × List UInt8)
  | .send connectID encode =>
      let found := world.getSession connectID
      let call := encode world.stopSocketFlag found.isSome
      match found, call.sent with
      | some session, some length =>
          if (world.poolSession session).isClosed then []
          else [(connectID, ((call.sendBuf beyond).read 0 length.toNat).drop packetHeaderLength)]
      | _, _ => []
  | _ => []

/-- What several calls put on the sockets, made one after the other. -/
def putsAll (callbacks : Callbacks U) (beyond : Memory) :
    World U → List ApiCall → List (Int × List UInt8)
  | _, [] => []
  | world, call :: rest =>
      world.puts beyond call ++ putsAll callbacks beyond (world.perform callbacks call) rest

theorem puts_of_not_sends (beyond : Memory) (world : World U) {call : ApiCall}
    (quiet : ¬call.Sends) : world.puts beyond call = [] := by
  cases call with
  | send connectID encode => exact absurd trivial quiet
  | _ => rfl

theorem putsAll_of_not_sends (beyond : Memory) (world : World U) {calls : List ApiCall}
    (quiet : ∀ call ∈ calls, ¬call.Sends) : putsAll callbacks beyond world calls = [] := by
  induction calls generalizing world with
  | nil => rfl
  | cons call rest ih =>
      rw [putsAll, puts_of_not_sends beyond world (quiet call List.mem_cons_self), List.nil_append]
      exact ih _ fun later later_mem => quiet later (List.mem_cons_of_mem call later_mem)

/-- The calls of a step are made in a sound state. -/
theorem sound_calls {world next : World U} {label : Label} (sound : world.toLifecycle.Sound)
    (steps : world.step callbacks label = some next) :
    (world.calls callbacks label).1.toLifecycle.Sound := by
  cases label with
  | complete index completion =>
      rcases complete_cases steps with ⟨handler, before, after, at_index, split, others, -⟩
      have splits := @splits_handle U callbacks 0 world before after completion handler sound split
      simp only [calls, at_index, others]
      exact splits.sound
  | _ => exact sound

end World

/-- No thread sends on its own account. -/
def Label.Refrains : Label → Prop
  | .call request => ¬request.Sends
  | _ => True

namespace Server

/-! ## The callback of a step -/

/-- The callback that a handler makes, if that callback does something. -/
def callbackOf (completion : Completion) (world : World Server) : Handler → Option Callback
  | .handleAccept _ session =>
      if completion.error ≠ 0 ∨ completion.remoteError = true then none
      else some (.onAccept (world.poolSession session).connIndex completion.upperMemory)
  | .handleConnect _ session =>
      if completion.error ≠ 0 ∧ world.stopSocketFlag = true then none
      else some (.onConnect (world.poolSession session).connIndex)
  | .handleReadSp session receive =>
      if world.stopSocketFlag ∨ (world.poolSession session).isClosed then none
      else
        let outcome := (world.poolSession session).readState.handleReadSp
          (receive.msg.place receive.recvOffset completion.bytes) (toSizeT receive.recvLength)
          completion.wouldBlock
        match outcome.deliver, (world.poolSession session).owner with
        | some (msg, length), some owner =>
            some (.onReadComplete owner (world.poolSession session).connIndex msg length)
        | _, _ => none
  | _ => none

/-- The callback that a step makes. -/
def stepCallback (world : World Server) : Label → Option Callback
  | .complete index completion => (world.pending[index]?).bind (callbackOf completion world)
  | _ => none

/-- A callback, and what the calls that it makes in `made` meet. -/
def meeting (made : World Server) (callback : Callback) : Occasion where
  callback := callback
  stopSocketFlag := made.stopSocketFlag
  found connectID := (made.getSession connectID).isSome

/-- The occasion that a step gives. -/
def occasionOf (world : World Server) (label : Label) : Option Occasion :=
  (stepCallback world label).map (meeting (world.calls callbacks label).1)

/-- What the server makes of a callback, if there is one. -/
def callBack (server : Server) : Option Callback → Server × List ApiCall
  | none => (server, [])
  | some callback => callback.run server

theorem callsOnConnect_eq (connector session : Nat) (errorCode : Int) (world : World Server) :
    ((world.callsOnConnect callbacks connector session errorCode).1.upper,
        (world.callsOnConnect callbacks connector session errorCode).2) =
      Callback.run world.upper (.onConnect (world.poolSession session).connIndex) :=
  rfl

/-- The calls of a handler are those of its callback. -/
theorem callsOf_eq (completion : Completion) (world : World Server) (handler : Handler) :
    ((world.callsOf callbacks completion handler).1.upper,
        (world.callsOf callbacks completion handler).2) =
      callBack world.upper (callbackOf completion world handler) := by
  cases handler with
  | handleAccept acceptor session =>
      simp only [World.callsOf, callbackOf]
      split <;> rfl
  | handleConnect connector session =>
      simp only [World.callsOf, callbackOf]
      by_cases failed : completion.error = 0
      · rcases World.connecting_keeps session world with ⟨sameIndex, sameUpper⟩
        simp only [failed, if_true, ne_eq, not_true_eq_false, false_and, if_false, callBack]
        rw [callsOnConnect_eq, sameIndex, sameUpper]
      · cases stopped : world.stopSocketFlag with
        | true => simp [failed, callBack]
        | false =>
            have sameIndex : ((world.refuse connector session).poolSession session).connIndex =
                (world.poolSession session).connIndex := by
              simp [World.refuse, World.destroySession, World.use, World.modify, World.count,
                World.expiresFromNow, Session.destruct]
            have sameUpper : (world.refuse connector session).upper = world.upper := rfl
            simp only [failed, if_false, ne_eq, not_false_eq_true, true_and, Bool.false_eq_true,
              callBack]
            rw [callsOnConnect_eq, sameIndex, sameUpper]
  | handleReadSp session receive =>
      simp only [World.callsOf, callbackOf]
      split
      · rfl
      · have owner : ∀ outcome : ReadOutcome, ((world.storing session receive outcome).poolSession
            session).owner = (world.poolSession session).owner := by
          intro outcome
          simp [World.storing, World.modify, World.use, World.count, Session.owner]
        have connIndex : ∀ outcome : ReadOutcome, ((world.storing session receive
            outcome).poolSession session).connIndex = (world.poolSession session).connIndex := by
          intro outcome
          simp [World.storing, World.modify, World.use, World.count]
        generalize (world.poolSession session).readState.handleReadSp
          (receive.msg.place receive.recvOffset completion.bytes) (toSizeT receive.recvLength)
          completion.wouldBlock = outcome
        simp only [World.callsOnRead, owner, connIndex]
        rcases outcome.deliver with _ | ⟨msg, length⟩
        · rfl
        · cases (world.poolSession session).owner <;> rfl
  | handleWrite session length =>
      simp only [World.callsOf, callbackOf]
      split
      · rfl
      · simp only [World.callsOnSend]
        cases ((world.use session).poolSession session).owner <;> rfl
  | handleExit session wait => rfl
  | handleDestory session wait => rfl

/-! ## The calls of a callback -/

/-- Only the first of the calls may send, and it sends nothing where no session is found. -/
structure Speaks (calls : List ApiCall) : Prop where
  refuses : ∀ connectID encode, .send connectID encode ∈ calls → ∀ stopSocketFlag,
    (encode stopSocketFlag false).sent = none
  quiet : ∀ call ∈ calls.tail, ¬call.Sends

theorem speaks_nil : Speaks [] where
  refuses _ _ mem := absurd mem List.not_mem_nil
  quiet _ mem := absurd mem List.not_mem_nil

theorem speaks_quiet {call : ApiCall} (quiet : ¬call.Sends) : Speaks [call] where
  refuses connectID encode mem := by
    rw [List.mem_singleton] at mem
    subst mem
    exact absurd trivial quiet
  quiet _ mem := absurd mem List.not_mem_nil

theorem speaks_send (server : Server) (connectID : Int) (message : Memory) (length : UInt16)
    {rest : List ApiCall} (quiet : ∀ call ∈ rest, ¬call.Sends) :
    Speaks (server.send connectID message length :: rest) where
  refuses target encode mem := by
    rcases List.mem_cons.mp mem with first | later
    · rw [Server.send, ApiCall.send.injEq] at first
      rcases first with ⟨-, rfl⟩
      intro stopSocketFlag
      cases stopSocketFlag <;> simp [SunPush.send, SendCall.refused]
    · exact absurd trivial (quiet _ later)
  quiet := quiet

theorem speaks_kickUser (server : Server) (user : Nat) : Speaks (server.kickUser user).2 := by
  have closes : ∀ connectID, ¬(ApiCall.asyncClose connectID 10).Sends := fun _ => id
  simp only [kickUser]
  split
  · refine speaks_send _ _ _ _ ?_
    intro call mem
    rcases List.mem_singleton.mp mem with rfl
    exact closes _
  · exact speaks_quiet (closes _)

theorem speaks_onClientReadComplete (server : Server) (connIndex : Int) (msg : Memory)
    (length : Int) : Speaks (server.onClientReadComplete connIndex msg length).2 := by
  have alone (speaker : Server) (connectID : Int) (message : Memory) (size : UInt16) :
      Speaks [speaker.send connectID message size] :=
    speaks_send speaker connectID message size fun _ mem => absurd mem List.not_mem_nil
  simp only [onClientReadComplete]
  split
  · exact speaks_nil
  · split
    · exact speaks_quiet id
    · simp only [parsePacketCS, handlerC2SUserAuthSyn, handlerC2STestOrderSyn]
      split
      · split
        · exact speaks_kickUser _ _
        · exact alone _ _ _ _
      · split
        · split
          · exact speaks_kickUser _ _
          · exact alone _ _ _ _
        · exact speaks_nil

theorem speaks_onWebReadComplete (server : Server) (connIndex : Int) (msg : Memory) :
    Speaks (server.onWebReadComplete connIndex msg).2 := by
  have alone (message : Memory) (connectID : Int) (size : UInt16) :
      Speaks [server.send connectID message size] :=
    speaks_send server connectID message size fun _ mem => absurd mem List.not_mem_nil
  simp only [onWebReadComplete, parsePacketWS, handlerW2SWsConnectedCmd, handlerW2SAuthResultAck,
    handlerW2SNewOrderBrdCmd]
  split
  · exact speaks_nil
  · split
    · exact alone _ _ _
    · split
      · exact speaks_nil
      · split
        · exact alone _ _ _
        · exact speaks_nil

theorem speaks_run (server : Server) (callback : Callback) : Speaks (callback.run server).2 := by
  cases callback with
  | onAccept connIndex memory =>
      simp only [Callback.run, onAccept]
      split
      · exact speaks_quiet id
      · exact speaks_send _ _ _ _ fun _ mem => absurd mem List.not_mem_nil
  | onConnect connIndex => exact speaks_nil
  | onReadComplete owner connIndex msg length =>
      cases owner with
      | acceptor acceptor => exact speaks_onClientReadComplete server connIndex msg.bufMsg length
      | connector connector => exact speaks_onWebReadComplete server connIndex msg.bufMsg

theorem payload_of_not_sends (occasion : Occasion) (stack : Memory) {call : ApiCall}
    (quiet : ¬call.Sends) : payload occasion stack call = none := by
  cases call with
  | send connectID encode => exact absurd trivial quiet
  | _ => rfl

/-- A call that speaks puts its payload on the socket of the session that is found. -/
theorem puts_eq_payload {made : World Server} (sound : made.toLifecycle.Sound)
    (callback : Callback) (stack : Memory) {call : ApiCall}
    (refuses : ∀ connectID encode, call = .send connectID encode → ∀ stopSocketFlag,
      (encode stopSocketFlag false).sent = none) :
    made.puts stack call = (payload (meeting made callback) stack call).toList := by
  cases call with
  | send connectID encode =>
      simp only [World.puts, payload, meeting]
      cases found : made.getSession connectID with
      | none =>
          have refused := refuses connectID encode rfl made.stopSocketFlag
          simp [refused]
      | some session =>
          have opened : (made.poolSession session).isClosed = false :=
            sound.notClosed_of_mapped found
          simp only [Option.isSome_some]
          cases (encode made.stopSocketFlag true).sent with
          | none => rfl
          | some length =>
              simp only [opened, Bool.false_eq_true, if_false]
              rfl
  | _ => rfl

theorem putsAll_eq_filterMap {made : World Server} (sound : made.toLifecycle.Sound)
    (callback : Callback) (stack : Memory) {calls : List ApiCall} (speaks : Speaks calls) :
    World.putsAll callbacks stack made calls =
      calls.filterMap (payload (meeting made callback) stack) := by
  cases calls with
  | nil => rfl
  | cons call rest =>
      have quiet : ∀ other ∈ rest, ¬other.Sends := speaks.quiet
      have first := puts_eq_payload sound callback stack fun connectID encode same =>
        speaks.refuses connectID encode (same ▸ List.mem_cons_self)
      have later := (List.filterMap_eq_nil_iff (l := rest)).mpr fun other mem =>
        payload_of_not_sends (meeting made callback) stack (quiet other mem)
      rw [World.putsAll, World.putsAll_of_not_sends _ _ quiet, List.append_nil, first,
        List.filterMap_cons]
      cases outcome : payload (meeting made callback) stack call with
      | none => exact later.symm
      | some output =>
          rw [later]
          rfl

/-! ## The runs of the service -/

/-- What has happened so far, in the terms of the component. -/
structure Course where
  occasions : List Occasion
  sent : List (Int × List UInt8)

/-- The course after a step. -/
def advance (course : Course) (world : World Server) (label : Label) : Course :=
  ⟨course.occasions ++ (occasionOf world label).toList,
    course.sent ++ World.putsAll callbacks world.upper.stack (world.calls callbacks label).1
      (world.calls callbacks label).2⟩

/-- The service with the occasions it has met and the frames it has put on the sockets. -/
def coursingService : Transition.System (World Server × Course) Label :=
  service.withHistory ⟨[], []⟩ advance

/-- The component, run on the stack the server works on, has led to where the service is. -/
def Matches (world : World Server) (course : Course) : Prop :=
  ∃ start : Server, start.Initial ∧ world.upper.stack = start.stack ∧
    component.run start (course.occasions.map fun occasion => (occasion, start.stack)) =
      (world.upper, course.sent)

theorem callbackOf_take (completion : Completion) (world : World Server)
    (pending : List Handler) (handler : Handler) :
    callbackOf completion (world.take pending) handler = callbackOf completion world handler := by
  cases handler <;> rfl

/-- The calls of a step are those of its callback, or one that a thread makes. -/
theorem calls_eq {world : World Server} {label : Label} (refrains : label.Refrains) :
    (world.calls callbacks label).1.upper = (callBack world.upper (stepCallback world label)).1 ∧
      ((world.calls callbacks label).2 = (callBack world.upper (stepCallback world label)).2 ∨
        stepCallback world label = none ∧
          ∀ call ∈ (world.calls callbacks label).2, ¬call.Sends) := by
  cases label with
  | complete index completion =>
      simp only [World.calls, stepCallback]
      cases world.pending[index]? with
      | none => exact ⟨rfl, .inl rfl⟩
      | some handler =>
          have same := callsOf_eq completion (world.take (world.pending.eraseIdx index)) handler
          rw [callbackOf_take] at same
          exact ⟨congrArg Prod.fst same, .inl (congrArg Prod.snd same)⟩
  | call request =>
      refine ⟨rfl, .inr ⟨rfl, ?_⟩⟩
      intro call mem
      rw [World.calls, List.mem_singleton] at mem
      exact mem ▸ refrains
  | _ => exact ⟨rfl, .inl rfl⟩

theorem matches_step {world next : World Server} {course : Course} {label : Label}
    (sound : world.toLifecycle.Sound) (refrains : label.Refrains)
    (steps : world.step callbacks label = some next) (same : Matches world course) :
    Matches next (advance course world label) := by
  rcases same with ⟨start, initial, stack, runs⟩
  have upper : next.upper = (world.calls callbacks label).1.upper :=
    World.upper_step (fun _ _ _ => rfl) steps
  have made := World.sound_calls sound steps
  rcases calls_eq refrains with ⟨told, calls⟩
  rw [told] at upper
  cases called : stepCallback world label with
  | none =>
      have quiet : ∀ call ∈ (world.calls callbacks label).2, ¬call.Sends := by
        rcases calls with none_made | ⟨-, quiet⟩
        · rw [none_made, called]
          exact fun _ mem => absurd mem List.not_mem_nil
        · exact quiet
      rw [called] at upper
      refine ⟨start, initial, upper ▸ stack, ?_⟩
      simp only [advance, occasionOf, called, Option.map_none, Option.toList_none, List.append_nil]
      rw [World.putsAll_of_not_sends _ _ quiet, List.append_nil, runs, upper]
      rfl
  | some callback =>
      let occasion := meeting (world.calls callbacks label).1 callback
      have answers : (world.calls callbacks label).2 = (callback.run world.upper).2 := by
        rcases calls with answers | ⟨unmade, -⟩
        · rw [answers, called]
          rfl
        · rw [called] at unmade
          contradiction
      have met : occasionOf world label = some occasion := by
        rw [occasionOf, called]
        rfl
      rw [called] at upper
      have after : next.upper = world.upper.after occasion := upper
      have reacts : component world.upper occasion start.stack = (next.upper,
          World.putsAll callbacks world.upper.stack (world.calls callbacks label).1
            (world.calls callbacks label).2) := by
        have state := component_fst world.upper start.stack occasion
        have outputs : (component world.upper occasion start.stack).2 =
            (callback.run world.upper).2.filterMap (payload occasion start.stack) := by
          rw [← stack]
          rfl
        have spoken := putsAll_eq_filterMap made callback world.upper.stack
          (speaks_run world.upper callback)
        rw [answers, spoken, after, ← state, stack, ← outputs]
      refine ⟨start, initial, ?_, ?_⟩
      · rw [after, after_stack, stack]
      · rw [advance, met, Option.toList_some, List.map_append, Component.run_append, runs]
        simp only [List.map_cons, List.map_nil, Component.run, reacts, List.append_nil]

theorem matches_of_reachable {both : World Server × Course}
    (reached : coursingService.ReachableBy (fun _ label => label.Refrains) both) :
    Matches both.1 both.2 := by
  refine reached.history_invariant (fun _ _ _ => trivial) (fun _ => World.sound_of_reachable)
    ?_ ?_
  · rintro world ⟨server, initial, rfl⟩
    exact ⟨server, initial, rfl, rfl⟩
  · intro world course label next sound same refrains steps
    exact matches_step sound refrains steps same

/-- Whatever happens in the service, as long as its threads do not call `Send`, the state of the
server and the frames put on the sockets are what the component makes of the occasions. -/
theorem component_of_service {world : World Server} {course : Course}
    (reached : coursingService.ReachableBy (fun _ label => label.Refrains) (world, course)) :
    ∃ start : Server, start.Initial ∧
      component.run start (course.occasions.map fun occasion => (occasion, start.stack)) =
        (world.upper, course.sent) := by
  rcases matches_of_reachable reached with ⟨start, initial, -, runs⟩
  exact ⟨start, initial, runs⟩

/-- A client is accepted, and the server announces that it is ready. -/
theorem component_of_service_one_client :
    ∃ (world : World Server) (course : Course), course.occasions.length = 1 ∧
      course.sent.map Prod.fst = [2] ∧ ∃ start : Server, start.Initial ∧
        component.run start (course.occasions.map fun occasion => (occasion, start.stack)) =
          (world.upper, course.sent) := by
  have starts : coursingService.Initial (World.initial atStart, ⟨[], []⟩) :=
    ⟨initial_atStart, rfl⟩
  have meets : coursingService.RunMeets (fun _ label => label.Refrains)
      (World.initial atStart, ⟨[], []⟩)
      [.call (.startListen 0 true), .complete 0 (.success [])] := by
    refine ⟨id, ?_⟩
    intro listening listens
    rcases Option.some.inj listens with rfl
    exact ⟨trivial, fun _ _ => trivial⟩
  have runs : ∃ both, coursingService.run (World.initial atStart, ⟨[], []⟩)
      [.call (.startListen 0 true), .complete 0 (.success [])] = some both ∧
        both.2.occasions.length = 1 ∧ both.2.sent.map Prod.fst = [2] := by
    refine ⟨_, rfl, rfl, ?_⟩
    decide +kernel
  rcases runs with ⟨⟨world, course⟩, runs, occasions, sent⟩
  have reached := Transition.System.ReachableBy.run (.initial starts) meets runs
  exact ⟨world, course, occasions, sent, component_of_service reached⟩

end Server

end SunPush
