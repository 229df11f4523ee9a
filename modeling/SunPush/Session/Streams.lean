import SunPush.Receiver.Connection
import SunPush.Session.Closing
import SunPush.Session.Receiving

/-!
# The receiver of a session in the running service

The service interleaves the completions of all sessions with the calls of
threads and callbacks, any of which may close sessions.  Nothing of this reaches
the receiver of a session that stays open: it behaves like the receiver of
`Connection`, alone with the chunks its own receives are completed with.

A session is *opening* until its socket is connected; nothing has been received
for it then.  What the rest of the service does is *unheard* by a session: it
leaves the session's receives and messages alone, or ends the session.
-/

namespace SunPush

open CInteger Lifecycle

/-- The message that an event reports for the session. -/
def Event.messageOf (session : Nat) : Event → Option (List UInt8)
  | onReadComplete target message => if target = session then some message else none
  | _ => none

namespace World

variable {U : Type} {callbacks : Callbacks U} {session : Nat}

/-- The messages that have been reported for a session, in order. -/
def messages (world : World U) (session : Nat) : List (List UInt8) :=
  world.log.filterMap (Event.messageOf session)

instance (world : World U) (session : Nat) : Decidable (world.IsOpen session) :=
  inferInstanceAs (Decidable (_ ∧ _))

/-- The session is not allocated yet, or its opening is pending. -/
def Opening (world : World U) (session : Nat) : Prop :=
  world.currentConnexindex < session ∨
    ∃ handler ∈ world.pending, handler.session = session ∧ handler.opens = true

/-- Where no session is constructed there is no owner. -/
def Forgotten (world : World U) (session : Nat) : Prop :=
  (world.poolSession session).alive = false → (world.poolSession session).owner = none

/-- Whatever happened, it happened to other sessions, or it ended this one. -/
structure Unheard (session : Nat) (before after : World U) : Prop where
  opening : after.Opening session → before.Opening session
  outstanding : after.outstanding session = before.outstanding session
  messages : after.messages session = before.messages session
  forgotten : before.Forgotten session → after.Forgotten session
  opened : after.IsOpen session → before.Opening session ∨ before.IsOpen session ∧
    (after.poolSession session).owner = (before.poolSession session).owner ∧
      (after.poolSession session).readState = (before.poolSession session).readState

namespace Unheard

variable {before middle after : World U}

theorem refl (world : World U) : Unheard session world world :=
  ⟨id, rfl, rfl, id, fun opened => .inr ⟨opened, rfl, rfl⟩⟩

theorem trans (first : Unheard session before middle) (second : Unheard session middle after) :
    Unheard session before after where
  opening opening := first.opening (second.opening opening)
  outstanding := second.outstanding.trans first.outstanding
  messages := second.messages.trans first.messages
  forgotten forgotten := second.forgotten (first.forgotten forgotten)
  opened := by
    intro opened
    rcases second.opened opened with opening | ⟨middle_opened, owner, readState⟩
    · exact .inl (first.opening opening)
    · rcases first.opened middle_opened with opening | ⟨before_opened, first_owner, first_readState⟩
      · exact .inl opening
      · exact .inr ⟨before_opened, owner.trans first_owner, readState.trans first_readState⟩

/-- The fields that matter are the same. -/
theorem of_same (current : after.currentConnexindex = before.currentConnexindex)
    (fields : after.poolSession session = before.poolSession session)
    (pending : after.pending = before.pending)
    (messages : after.messages session = before.messages session) :
    Unheard session before after where
  opening := by
    rw [Opening, Opening, current, pending]
    exact id
  outstanding := by rw [World.outstanding, World.outstanding, pending]
  messages := messages
  forgotten := by
    rw [Forgotten, Forgotten, fields]
    exact id
  opened := by
    rw [IsOpen, fields]
    exact fun opened => .inr ⟨opened, rfl, rfl⟩

end Unheard

/-! ## The parts of the functions -/

theorem unheard_use (target : Nat) (world : World U) :
    Unheard session world (world.use target) :=
  .of_same rfl rfl rfl rfl

theorem unheard_count (change : Statistics → Statistics) (world : World U) :
    Unheard session world (world.count change) :=
  .of_same rfl rfl rfl rfl

theorem unheard_record {event : Event} (silent : event.messageOf session = none)
    (world : World U) : Unheard session world (world.record event) := by
  have reported : (world.record event).messages session = world.messages session := by
    simp [messages, record, silent]
  exact .of_same rfl rfl rfl reported

theorem unheard_modify_other {target : Nat} (other : session ≠ target)
    (change : Session → Session) (world : World U) :
    Unheard session world (world.modify target change) :=
  .of_same rfl (Function.update_of_ne other _ _) rfl rfl

/-- The fields of one session change, and it is not open any more. -/
theorem unheard_ended {target : Nat} {before after : World U}
    (current : after.currentConnexindex = before.currentConnexindex)
    (others : ∀ other, other ≠ target → after.poolSession other = before.poolSession other)
    (pending : after.pending = before.pending)
    (messages : after.messages session = before.messages session) (ended : ¬after.IsOpen target)
    (forgotten : before.Forgotten target → after.Forgotten target) :
    Unheard session before after := by
  by_cases same : session = target
  · subst same
    refine ⟨?_, ?_, messages, forgotten, fun opened => absurd opened ended⟩
    · rw [Opening, Opening, current, pending]
      exact id
    · rw [outstanding, outstanding, pending]
  · exact .of_same current (others session same) pending messages

theorem unheard_modify_ended {target : Nat} {change : Session → Session} {world : World U}
    (ended : ¬(world.modify target change).IsOpen target)
    (forgotten : world.Forgotten target → (world.modify target change).Forgotten target) :
    Unheard session world (world.modify target change) :=
  unheard_ended rfl (fun _ other => Function.update_of_ne other _ _) rfl rfl ended forgotten

theorem outstanding_post (world : World U) {handler : Handler}
    (receives : receiveOf session handler = none) :
    (world.post handler).outstanding session = world.outstanding session := by
  simp [outstanding, post, receives]

theorem opening_post {world : World U} {handler : Handler}
    (opens : handler.opens = true → handler.session = session → world.Opening session)
    (opening : (world.post handler).Opening session) : world.Opening session := by
  rcases opening with unallocated | ⟨earlier, earlier_mem, same, earlier_opens⟩
  · exact .inl unallocated
  · rcases List.mem_append.mp earlier_mem with mem | last
    · exact .inr ⟨earlier, mem, same, earlier_opens⟩
    · rw [List.mem_singleton.mp last] at same earlier_opens
      exact opens earlier_opens same

theorem unheard_post {world : World U} {handler : Handler}
    (receives : receiveOf session handler = none)
    (opens : handler.opens = true → handler.session = session → world.Opening session) :
    Unheard session world (world.post handler) where
  opening := opening_post opens
  outstanding := outstanding_post world receives
  messages := rfl
  forgotten := id
  opened opened := .inr ⟨opened, rfl, rfl⟩

theorem receiveOf_cancel (target : Nat) (handler : Handler) :
    receiveOf session (handler.cancel target) = receiveOf session handler := by
  cases handler <;> rfl

theorem unheard_expiresFromNow (target : Nat) (world : World U) :
    Unheard session world (world.expiresFromNow target) where
  opening := by
    rintro (unallocated | ⟨handler, handler_mem, same, opens⟩)
    · exact .inl unallocated
    · rcases List.mem_map.mp handler_mem with ⟨earlier, earlier_mem, rfl⟩
      rw [Handler.session_cancel] at same
      rw [Handler.opens_cancel] at opens
      exact .inr ⟨earlier, earlier_mem, same, opens⟩
  outstanding := by
    have cancels : receiveOf session ∘ Handler.cancel target = receiveOf session :=
      funext fun handler => receiveOf_cancel target handler
    rw [outstanding, expiresFromNow, List.filterMap_map, cancels]
    rfl
  messages := rfl
  forgotten := id
  opened opened := .inr ⟨opened, rfl, rfl⟩

theorem unheard_destroySession (target : Nat) (world : World U) :
    Unheard session world (world.destroySession target) := by
  have ended : ¬((world.use target).modify target .destruct).IsOpen target := by
    simp [IsOpen, modify, Session.destruct]
  have forgotten : ((world.use target).modify target .destruct).Forgotten target := by
    simp [Forgotten, modify, Session.destruct, Session.owner]
  have destructed : Unheard session world ((world.use target).modify target .destruct) :=
    (unheard_use target world).trans (unheard_modify_ended ended fun _ => forgotten)
  exact (destructed.trans (unheard_expiresFromNow target _)).trans (unheard_count _ _)

theorem unheard_removeAllSession (world : World U) :
    Unheard session world world.removeAllSession := by
  suffices destroyed : ∀ (entries : List (Sigma fun _ : Int => Nat)) (current : World U),
      Unheard session current
        (entries.foldl (fun world entry => world.destroySession entry.2) current) from
    (destroyed world.mapSession.entries world).trans (.of_same rfl rfl rfl rfl)
  intro entries
  induction entries with
  | nil => exact fun current => .refl current
  | cons entry entries ih =>
      exact fun current => (unheard_destroySession entry.2 current).trans (ih _)

/-- The owner of a session that is marked closed is told. -/
theorem unheard_tellClosed {target : Nat} {world : World U}
    (closed : (world.poolSession target).isClosed = true) :
    Unheard session world (world.tellClosed callbacks target) := by
  have told := (@tellClosed_toLifecycle U callbacks target world).1
  generalize world.tellClosed callbacks target = next at told ⊢
  have reported : next.messages session = world.messages session := by
    rw [messages, told]
    simp only [Lifecycle.setSession, Lifecycle.tell]
    split
    · simp [messages, Event.messageOf]
    · rfl
  refine @unheard_ended U session target world next ?_ ?_ ?_ reported ?_ ?_
  · rw [told]
    rfl
  · intro other different
    rw [told]
    exact Function.update_of_ne different _ _
  · rw [told]
    rfl
  · rw [IsOpen, told]
    simpa [Lifecycle.setSession, Session.isClosed, imp_iff_not_or, or_assoc] using Or.inr closed
  · intro forgotten
    rw [Forgotten, told]
    simp only [Lifecycle.setSession, Function.update_self]
    intro dead
    have unowned := forgotten dead
    rcases fields : world.poolSession target with
      ⟨alive, status, connIndex, _ | acceptor, _ | connector, readState⟩
    all_goals rw [fields] at unowned
    all_goals first | rfl | contradiction

theorem unheard_leaveMap (target : Nat) (world : World U) :
    Unheard session world (world.leaveMap target) := by
  simp only [leaveMap]
  split
  · exact .refl world
  · have removed : Unheard session world
        (world.removeSession (world.poolSession target).connIndex) := .of_same rfl rfl rfl rfl
    exact (removed.trans (unheard_expiresFromNow target _)).trans
      (unheard_post rfl Bool.noConfusion)

theorem unheard_handleExit (target : Nat) (world : World U) :
    Unheard session world (world.handleExit callbacks target) := by
  simp only [handleExit]
  split
  · exact unheard_use target world
  · let marked := ((world.use target).modify target fun s => { s with socketStatus := .closed })
    have ended : ¬marked.IsOpen target := by
      simp [marked, IsOpen, modify, Session.isClosed]
    have forgotten : (world.use target).Forgotten target → marked.Forgotten target := by
      simp [marked, Forgotten, modify, Session.owner]
    have marks : Unheard session world marked :=
      (unheard_use target world).trans (unheard_modify_ended ended forgotten)
    refine ((marks.trans (unheard_count _ marked)).trans (unheard_tellClosed ?_)).trans
      (unheard_leaveMap target _)
    simp [marked, count, modify, Session.isClosed]

theorem unheard_close (target : Nat) (waitSeconds : Int) (world : World U) :
    Unheard session world (world.close callbacks target waitSeconds) := by
  simp only [close]
  split
  · exact ((unheard_use target world).trans (unheard_expiresFromNow target _)).trans
      (unheard_post rfl Bool.noConfusion)
  · exact unheard_handleExit target world

theorem unheard_sendSession (target : Nat) (length : Int) (world : World U) :
    Unheard session world (world.sendSession target length) := by
  simp only [sendSession]
  split
  · exact unheard_use target world
  · exact ((unheard_use target world).trans (unheard_post rfl Bool.noConfusion)).trans
      (unheard_count _ _)

/-! ## Calls into the socket layer -/

/-- A session comes into use, and its opening is posted. -/
theorem unheard_allocate {world next : World U} {fields : Session} {handler : Handler}
    (constructed : fields.alive = true)
    (allocates : next.toLifecycle = (world.toLifecycle.allocate fields).queue handler)
    (receives : receiveOf session handler = none)
    (opened : handler.session = world.currentConnexindex + 1) : Unheard session world next := by
  have current : next.currentConnexindex = world.currentConnexindex + 1 := by
    rw [allocates]
    rfl
  have pending : next.pending = world.pending ++ [handler] := by
    rw [allocates]
    rfl
  have reported : next.messages session = world.messages session := by
    rw [messages, allocates]
    rfl
  have kept (other : session ≠ world.currentConnexindex + 1) :
      next.poolSession session = world.poolSession session := by
    rw [allocates]
    exact Function.update_of_ne other _ _
  refine ⟨?_, ?_, reported, ?_, ?_⟩
  · rintro (unallocated | ⟨earlier, earlier_mem, same, opens⟩)
    · exact .inl (by omega)
    · rw [pending, List.mem_append, List.mem_singleton] at earlier_mem
      rcases earlier_mem with mem | rfl
      · exact .inr ⟨earlier, mem, same, opens⟩
      · exact .inl (by omega)
  · simp [outstanding, pending, receives]
  · by_cases same : session = world.currentConnexindex + 1
    · intro _ dead
      rw [allocates, same] at dead
      simp [Lifecycle.queue, Lifecycle.allocate, constructed] at dead
    · rw [Forgotten, Forgotten, kept same]
      exact id
  · intro opened
    by_cases same : session = world.currentConnexindex + 1
    · exact .inl (.inl (by omega))
    · rw [IsOpen, kept same] at opened
      rw [kept same]
      exact .inr ⟨opened, rfl, rfl⟩

theorem unheard_startListen (acceptor : Nat) (memory : Bool) (world : World U) :
    Unheard session world (world.startListen acceptor memory) := by
  simp only [startListen]
  split
  · exact .refl world
  · cases memory with
    | false => exact .refl world
    | true =>
        refine @unheard_allocate U session world _ (.construct (world.currentConnexindex + 1))
          (.handleAccept acceptor (world.currentConnexindex + 1)) rfl ?_ rfl rfl
        rfl

theorem unheard_asyncConnect (connector : Nat) (memory : Bool) (world : World U) :
    Unheard session world (world.asyncConnect connector memory) := by
  simp only [asyncConnect]
  split
  · exact .refl world
  · cases memory with
    | false => exact .of_same rfl rfl rfl rfl
    | true =>
        refine @unheard_allocate U session world _
          { Session.construct (world.currentConnexindex + 1) with
            connector := some connector, socketStatus := .connecting }
          (.handleConnect connector (world.currentConnexindex + 1)) rfl ?_ rfl rfl
        simp only [allocSession, modify, count, post, if_true, Function.update_self,
          Function.update_idem]
        rfl

theorem unheard_closeSocket (connectID : Int) (world : World U) :
    Unheard session world (world.closeSocket callbacks connectID) := by
  simp only [closeSocket]
  split
  · exact .refl world
  · exact unheard_close _ 0 world

theorem unheard_perform (call : ApiCall) (world : World U) :
    Unheard session world (world.perform callbacks call) := by
  cases call with
  | send connectID encode =>
      simp only [perform]
      split
      · exact unheard_sendSession _ _ world
      · exact .refl world
  | closeSocket connectID => exact unheard_closeSocket connectID world
  | asyncClose connectID waitSeconds =>
      simp only [perform]
      split
      · exact .refl world
      · exact unheard_close _ waitSeconds world
  | startListen acceptor memory => exact unheard_startListen acceptor memory world
  | stopListen acceptor failed =>
      simp only [perform]
      split
      · exact .refl world
      · exact unheard_count _ world
  | asyncConnect connector memory => exact unheard_asyncConnect connector memory world
  | disConnect connector =>
      simp only [perform]
      split
      · exact .refl world
      · exact unheard_closeSocket _ world

/-- The calls of a callback are unheard, also by the session it was called for. -/
theorem unheard_performAll (result : U × List ApiCall) (world : World U) :
    Unheard session world (world.performAll callbacks result) := by
  rcases result with ⟨upper, calls⟩
  have changed : Unheard session world { world with upper := upper } := .of_same rfl rfl rfl rfl
  suffices performed : ∀ current : World U, Unheard session world current →
      Unheard session world (calls.foldl (perform callbacks) current) from performed _ changed
  induction calls with
  | nil => exact fun _ unheard => unheard
  | cons call calls ih =>
      exact fun current unheard => ih _ (unheard.trans (unheard_perform call current))

/-! ## Handlers -/

theorem unheard_callback {event : Event} (silent : event.messageOf session = none)
    (result : U × List ApiCall) (world : World U) :
    Unheard session world ((world.record event).performAll callbacks result) :=
  (unheard_record silent world).trans (unheard_performAll result _)

theorem unheard_acceptNext (acceptor : Nat) (memory : Bool) (world : World U) :
    Unheard session world (world.acceptNext acceptor memory) := by
  cases memory with
  | false => exact .refl world
  | true =>
      refine @unheard_allocate U session world _ (.construct (world.currentConnexindex + 1))
        (.handleAccept acceptor (world.currentConnexindex + 1)) rfl ?_ rfl rfl
      rfl

theorem unheard_onAccept (acceptor target : Nat) (memory : Bool) (world : World U) :
    Unheard session world (world.onAccept callbacks acceptor target memory) :=
  (unheard_use target world).trans (unheard_callback rfl _ _)

theorem unheard_onConnect (connector target : Nat) (errorCode : Int) (world : World U) :
    Unheard session world (world.onConnect callbacks connector target errorCode) :=
  (unheard_use target world).trans (unheard_callback rfl _ _)

/-- The session of an attempt that failed is ended. -/
theorem unheard_handleConnect_failed (connector target : Nat) {completion : Completion}
    (failed : completion.error ≠ 0) (world : World U) :
    Unheard session world (world.handleConnect callbacks connector target completion) := by
  simp only [handleConnect, failed, ne_eq, not_false_eq_true, if_true]
  split
  · exact .refl world
  · let counted := world.count fun s => { s with totalConnecting := s.totalConnecting - 1 }
    let marked := (counted.use target).modify target fun s => { s with socketStatus := .error }
    have ended : ¬marked.IsOpen target := by
      simp [marked, IsOpen, modify, Session.isClosed]
    have forgotten : (counted.use target).Forgotten target → marked.Forgotten target := by
      simp [marked, Forgotten, modify, Session.owner]
    have marks : Unheard session world marked :=
      ((unheard_count _ world).trans (unheard_use target _)).trans
        (unheard_modify_ended ended forgotten)
    have destroyed := marks.trans (unheard_destroySession target marked)
    refine (destroyed.trans ?_).trans (unheard_onConnect connector target _ _)
    exact .of_same rfl rfl rfl rfl

theorem unheard_handleDestory (target : Nat) (world : World U) :
    Unheard session world (world.handleDestory target) :=
  (unheard_destroySession target world).trans (unheard_count _ _)

theorem unheard_receiveSp_other {target : Nat} (other : session ≠ target) (receive : Receive)
    (world : World U) : Unheard session world (world.receiveSp target receive) :=
  (unheard_use target world).trans (unheard_post (if_neg other.symm) Bool.noConfusion)

theorem unheard_start_other {target : Nat} (other : session ≠ target) (world : World U) :
    Unheard session world (world.start target) :=
  ((unheard_use target world).trans (unheard_modify_other other _ _)).trans
    (unheard_receiveSp_other other receiveHeader _)

theorem unheard_openSession_other {target : Nat} (other : session ≠ target)
    (change : Session → Session) (world : World U) :
    Unheard session world (world.openSession target change) :=
  ((unheard_use target world).trans (unheard_modify_other other change _)).trans
    (.of_same rfl rfl rfl rfl)

theorem unheard_handleAccept_other {target : Nat} (other : session ≠ target) (acceptor : Nat)
    (completion : Completion) (world : World U) :
    Unheard session world (world.handleAccept callbacks acceptor target completion) := by
  simp only [handleAccept]
  split
  · exact unheard_destroySession target world
  · let counted := world.count fun s => { s with totalConneced := s.totalConneced + 1 }
    have counts : Unheard session world counted := unheard_count _ world
    refine Unheard.trans ?_ (unheard_acceptNext acceptor completion.memory _)
    split
    · exact counts.trans (unheard_handleExit target counted)
    · have opened := counts.trans (@unheard_openSession_other U session target other
        (fun s => { s with socketStatus := .connected, acceptor := some acceptor }) counted)
      exact (opened.trans (unheard_onAccept acceptor target _ _)).trans
        (unheard_start_other other _)

theorem unheard_handleConnect_other {target : Nat} (other : session ≠ target) (connector : Nat)
    (completion : Completion) (world : World U) :
    Unheard session world (world.handleConnect callbacks connector target completion) := by
  by_cases failed : completion.error = 0
  · simp only [handleConnect, failed, ne_eq, not_true_eq_false, if_false]
    have opened := @unheard_openSession_other U session target other
      (fun s => { s with socketStatus := .connected }) world
    have started := opened.trans (unheard_start_other other _)
    exact started.trans (unheard_onConnect connector target 0 _)
  · exact unheard_handleConnect_failed connector target failed world

theorem unheard_handleWrite (target : Nat) (length : Int) (completion : Completion)
    (world : World U) :
    Unheard session world (world.handleWrite callbacks target length completion) := by
  have used := @unheard_use U session target world
  simp only [handleWrite]
  split
  · exact used
  · refine (used.trans ?_).trans (unheard_count _ _)
    simp only [onSend]
    split
    · exact unheard_use target _
    · exact (unheard_use target _).trans (unheard_callback rfl _ _)

theorem unheard_deliver_other {target : Nat} (other : session ≠ target)
    (message : Option (NetMsg × Int)) (world : World U) :
    Unheard session world (world.deliver callbacks target message) := by
  rcases message with _ | ⟨msg, length⟩
  · exact .refl world
  · let counted := world.count fun s => { s with totalMsgRecvCount := s.totalMsgRecvCount + 1 }
    have counts : Unheard session world counted := unheard_count _ world
    refine counts.trans ?_
    change Unheard session counted (counted.onReadComplete callbacks target msg length)
    simp only [onReadComplete]
    have silent : (Event.onReadComplete target (msg.message length)).messageOf session = none :=
      if_neg other.symm
    split
    · exact unheard_use target _
    · exact (unheard_use target _).trans (unheard_callback silent _ _)

theorem unheard_finishReadSp_other {target : Nat} (other : session ≠ target)
    (outcome : ReadOutcome) (world : World U) :
    Unheard session world (world.finishReadSp callbacks target outcome) := by
  have reread := @unheard_modify_other U session target other
    (fun s => { s with readState := outcome.state }) world
  have delivered := reread.trans
    (@unheard_deliver_other U callbacks session target other outcome.deliver _)
  rcases outcome with ⟨state, deliver, _ | receive, _ | _⟩
  · exact delivered
  · exact delivered.trans (unheard_handleExit target _)
  · exact delivered.trans (unheard_receiveSp_other other receive _)
  · exact (delivered.trans (unheard_receiveSp_other other receive _)).trans
      (unheard_handleExit target _)

theorem unheard_handleReadSp_other {target : Nat} (other : session ≠ target) (receive : Receive)
    (completion : Completion) (world : World U) :
    Unheard session world (world.handleReadSp callbacks target receive completion) := by
  let counted := world.count fun s =>
    { s with totalDataRecv := s.totalDataRecv + receive.recvLength }
  have counts : Unheard session world counted := unheard_count _ world
  have used : Unheard session world (counted.use target) := counts.trans (unheard_use target _)
  simp only [handleReadSp]
  split
  · exact counts
  · split
    · exact used
    · exact used.trans (unheard_finishReadSp_other other _ _)

/-! ## The receiver of the session -/

/-- The chunks of a session have led its receiver to where the receiver of `Connection` is. -/
structure Follows (chunks : List (List UInt8)) (session : Nat) (world : World U) : Prop where
  opening : world.Opening session → chunks = [] ∧ world.outstanding session = []
  messages : world.messages session = (Connection.start.run chunks).2
  forgotten : world.Forgotten session
  reads : world.IsOpen session → ∀ receive ∈ world.outstanding session,
    (world.poolSession session).owner.isSome = true ∧
      (Connection.start.run chunks).1 = ⟨(world.poolSession session).readState, some receive⟩

variable {chunks : List (List UInt8)} {world next : World U}

theorem Follows.unheard (follows : Follows chunks session world)
    (unheard : Unheard session world next) : Follows chunks session next where
  opening opening := by
    rw [unheard.outstanding]
    exact follows.opening (unheard.opening opening)
  messages := unheard.messages.trans follows.messages
  forgotten := unheard.forgotten follows.forgotten
  reads := by
    intro opened receive receive_mem
    rw [unheard.outstanding] at receive_mem
    rcases unheard.opened opened with opening | ⟨before_opened, owner, readState⟩
    · rw [(follows.opening opening).2] at receive_mem
      contradiction
    · rw [owner, readState]
      exact follows.reads before_opened receive receive_mem

section Awaiting

variable {state : ReadState} (awaits : world.toLifecycle.Awaits session state)

include awaits

theorem not_opening_of_awaits : ¬world.Opening session := by
  rintro (unallocated | ⟨handler, handler_mem, same, opens⟩)
  · have := awaits.numbered.1
    omega
  · rw [(awaits.quiet handler handler_mem same).2] at opens
    contradiction

theorem outstanding_of_awaits : world.outstanding session = [] := by
  rw [outstanding, List.filterMap_eq_nil_iff]
  intro handler handler_mem
  cases receives : receiveOf session handler with
  | none => rfl
  | some receive =>
      rcases of_receiveOf receives with ⟨target, rfl, same⟩
      have quiet := (awaits.quiet _ handler_mem same).1
      contradiction

/-- While the session awaits its next receive, only its messages matter. -/
theorem follows_of_awaits (messages : world.messages session = (Connection.start.run chunks).2)
    (forgotten : world.Forgotten session) : Follows chunks session world where
  opening opening := absurd opening (not_opening_of_awaits awaits)
  messages := messages
  forgotten := forgotten
  reads := by
    intro _ receive receive_mem
    rw [outstanding_of_awaits awaits] at receive_mem
    contradiction

/-- The receive that is posted is the one of the isolated receiver. -/
theorem follows_receiveSp {receive : Receive} (follows : Follows chunks session world)
    (posts : world.IsOpen session → (world.poolSession session).owner.isSome = true ∧
      (Connection.start.run chunks).1 =
        ⟨(world.poolSession session).readState, some receive⟩) :
    Follows chunks session (world.receiveSp session receive) where
  opening := by
    intro opening
    have before : world.Opening session :=
      @opening_post U session (world.use session) (.handleReadSp session receive)
        (fun opens => Bool.noConfusion opens) opening
    exact absurd before (not_opening_of_awaits awaits)
  messages := follows.messages
  forgotten := follows.forgotten
  reads := by
    intro opened other other_mem
    have added : (world.receiveSp session receive).outstanding session =
        world.outstanding session ++ [receive] := by
      simp [outstanding, receiveSp, post, use, receiveOf]
    rw [added, outstanding_of_awaits awaits, List.nil_append, List.mem_singleton] at other_mem
    rw [other_mem]
    exact posts opened

theorem follows_start (follows : Follows [] session world)
    (owned : world.IsOpen session → (world.poolSession session).owner.isSome = true) :
    Follows [] session (world.start session) := by
  have touched := awaits.touched
  rcases @reread_moves U .all world session state .expectHeader awaits with ⟨_, rereads⟩
  have owner : ((world.modify session fun s => { s with readState := .expectHeader }).poolSession
      session).owner = (world.poolSession session).owner := by
    simp [modify, Session.owner]
  have opened_iff : (world.modify session fun s =>
      { s with readState := .expectHeader }).IsOpen session ↔ world.IsOpen session := by
    simp [IsOpen, modify, Session.isClosed]
  have forgotten : (world.modify session fun s =>
      { s with readState := .expectHeader }).Forgotten session := by
    simpa [Forgotten, modify, Session.owner] using follows.forgotten
  simp only [start, use_of_touched touched]
  apply follows_receiveSp rereads (follows_of_awaits rereads follows.messages forgotten)
  intro opened
  rw [owner, rereads.readState]
  exact ⟨owned (opened_iff.mp opened), rfl⟩

end Awaiting

/-! ## The handlers of the session -/

theorem complete_singleton (chunks : List (List UInt8)) (chunk : List UInt8) :
    Connection.start.run (chunks ++ [chunk]) =
      (((Connection.start.run chunks).1.complete chunk).1,
        (Connection.start.run chunks).2 ++
          ((Connection.start.run chunks).1.complete chunk).2.toList) := by
  rw [Connection.run_append]
  simp [Connection.run]

/-- What a message is reported to: the owner, whose calls are unheard, or nobody. -/
theorem deliver_spec {state : ReadState} (awaits : world.toLifecycle.Awaits session state)
    (message : Option (NetMsg × Int)) :
    ∃ told : World U, told.toLifecycle.Awaits session state ∧
      Unheard session told (world.deliver callbacks session message) ∧
        told.poolSession session = world.poolSession session ∧
          told.messages session = world.messages session ++
            if (world.poolSession session).owner.isSome then
              (message.map fun delivered => delivered.1.message delivered.2).toList
            else [] := by
  rcases message with _ | ⟨msg, length⟩
  · exact ⟨world, awaits, .refl world, rfl, by simp⟩
  · cases owned : (world.poolSession session).owner with
    | none =>
        have unreported : world.deliver callbacks session (some (msg, length)) =
            (world.count fun s => { s with totalMsgRecvCount := s.totalMsgRecvCount + 1 }).use
              session := by
          simp only [deliver, onReadComplete, count, use, owned]
        rw [unreported]
        refine ⟨world, awaits, ?_, rfl, by simp⟩
        exact (unheard_count _ world).trans (unheard_use session _)
    | some owner =>
        let counted := world.count fun s =>
          { s with totalMsgRecvCount := s.totalMsgRecvCount + 1 }
        have reported : world.deliver callbacks session (some (msg, length)) =
            ((counted.use session).record (.onReadComplete session
              (msg.message length))).performAll callbacks
                (callbacks.onReadComplete owner (world.poolSession session).connIndex msg length
                  world.upper) := by
          simp only [deliver, onReadComplete, counted, count, use, owned]
        rw [reported]
        have unused : counted.use session = counted := use_of_touched awaits.touched
        rw [unused]
        refine ⟨counted.record (.onReadComplete session (msg.message length)),
          ⟨awaits.quiet, awaits.readState, awaits.numbered, awaits.touched⟩,
          unheard_performAll _ _, rfl, ?_⟩
        simp [messages, record, counted, count, Event.messageOf]

/-- The handler is told the requested length, which is never that of an error. -/
theorem handleReadSp_wouldBlock {state : ReadState} {receive : Receive}
    (window : ReadState.Window state receive) (msg : NetMsg) (wouldBlock : Bool) :
    state.handleReadSp msg (toSizeT receive.recvLength) wouldBlock =
      state.handleReadSp msg (toSizeT receive.recvLength) false := by
  have bounds := window.bounds
  have told : toSizeT receive.recvLength ≠ 2 ^ 32 - 1 := by
    rw [window.toSizeT_eq]
    simp only [maxMsgSize] at bounds
    omega
  simp only [ReadState.handleReadSp, told, false_and]

/-- The isolated receiver completes its receive as the session's handler decides. -/
theorem complete_of_window {state : ReadState} {receive : Receive} {bytes : List UInt8}
    {wouldBlock : Bool} {outcome : ReadOutcome} (window : ReadState.Window state receive)
    (decided : outcome = state.handleReadSp (receive.msg.place receive.recvOffset bytes)
      (toSizeT receive.recvLength) wouldBlock) :
    (Connection.mk state (some receive)).complete bytes =
      (⟨outcome.state, outcome.receive⟩,
        outcome.deliver.map fun delivered => delivered.1.message delivered.2) := by
  rw [decided, handleReadSp_wouldBlock window]
  rfl

theorem follows_finishReadSp {state : ReadState} {receive posted : Receive} {bytes : List UInt8}
    {wouldBlock : Bool} {outcome : ReadOutcome} (sound : world.toLifecycle.Sound)
    (awaits : world.toLifecycle.Awaits session state)
    (notClosed : (world.poolSession session).isClosed = false)
    (messages : world.messages session = (Connection.start.run chunks).2)
    (forgotten : world.Forgotten session)
    (reads : world.IsOpen session → (world.poolSession session).owner.isSome = true ∧
      (Connection.start.run chunks).1 = ⟨state, some receive⟩)
    (window : ReadState.Window state receive)
    (decided : outcome = state.handleReadSp (receive.msg.place receive.recvOffset bytes)
      (toSizeT receive.recvLength) wouldBlock)
    (stays : outcome.exit = false) (posts : outcome.receive = some posted) :
    Follows (if world.IsOpen session then chunks ++ [bytes] else chunks) session
      (world.finishReadSp callbacks session outcome) := by
  rcases @reread_moves U .all world session state outcome.state awaits with ⟨reread, rereads⟩
  have opened_iff : (world.modify session fun s => { s with readState := outcome.state }).IsOpen
      session ↔ world.IsOpen session := by
    simp [IsOpen, modify, Session.isClosed]
  have owner : ((world.modify session fun s => { s with readState := outcome.state }).poolSession
      session).owner = (world.poolSession session).owner := by
    simp [modify, Session.owner]
  have kept : (world.modify session fun s =>
      { s with readState := outcome.state }).Forgotten session := by
    simpa [Forgotten, modify, Session.owner] using forgotten
  have reported : (world.modify session fun s =>
      { s with readState := outcome.state }).messages session =
        (Connection.start.run chunks).2 := messages
  simp only [finishReadSp, stays, posts, Bool.false_eq_true, if_false]
  generalize (world.modify session fun s => { s with readState := outcome.state }) = current
    at reread rereads opened_iff owner kept reported ⊢
  have delivers : ApiMoves .all current.toLifecycle
      (current.deliver callbacks session outcome.deliver).toLifecycle :=
    deliver_moves (sound.moves reread) rereads.touched fun _ _ _ _ _ _ _ => trivial
  have delivered := rereads.apiMoves delivers
  rcases @deliver_spec U callbacks session current outcome.state rereads outcome.deliver with
    ⟨told, told_awaits, unheard, fields, told_messages⟩
  have told_kept : told.Forgotten session := by
    rw [Forgotten, fields]
    exact kept
  rw [owner, reported] at told_messages
  have lives (opened : (current.deliver callbacks session outcome.deliver).IsOpen session) :
      world.IsOpen session ∧
        ((current.deliver callbacks session outcome.deliver).poolSession session).owner =
          (world.poolSession session).owner := by
    rcases unheard.opened opened with opening | ⟨told_opened, same, _⟩
    · exact absurd opening (not_opening_of_awaits told_awaits)
    · rw [IsOpen, fields] at told_opened
      exact ⟨opened_iff.mp told_opened, (same.trans (congrArg _ fields)).trans owner⟩
  by_cases opened : world.IsOpen session
  · rcases reads opened with ⟨owned, isolated⟩
    have completes := complete_singleton chunks bytes
    rw [isolated, complete_of_window window decided] at completes
    rw [owned, if_pos rfl] at told_messages
    have follows : Follows (chunks ++ [bytes]) session told := by
      apply follows_of_awaits told_awaits _ told_kept
      rw [told_messages, completes]
    rw [if_pos opened]
    apply follows_receiveSp delivered (follows.unheard unheard)
    intro later
    rw [(lives later).2, delivered.readState, completes, posts]
    exact ⟨owned, rfl⟩
  · have dead : (world.poolSession session).alive = false := by
      cases alive : (world.poolSession session).alive with
      | true => exact absurd ⟨alive, notClosed⟩ opened
      | false => rfl
    rw [forgotten dead, Option.isSome_none, if_neg Bool.noConfusion, List.append_nil]
      at told_messages
    rw [if_neg opened]
    apply follows_receiveSp delivered
    · exact (follows_of_awaits told_awaits told_messages told_kept).unheard unheard
    · exact fun later => absurd (lives later).1 opened

section Handlers

variable {life : Lifecycle} {before after : List Handler} {completion : Completion}

theorem follows_acceptClient {acceptor : Nat} {memory : Bool} (sound : life.Sound)
    (split : life.pending = before ++ .handleAccept acceptor session :: after)
    (taken : world.toLifecycle = life.take (before ++ after))
    (follows : Follows [] session world) :
    Follows [] session (world.acceptClient callbacks acceptor session memory) := by
  have awaits := awaits_announced sound split taken
  have announcement := announced_toLifecycle sound split taken
  have move := @Move.accepted .all life acceptor session before after split trivial
  rw [← announcement] at move
  rw [acceptClient_eq sound split taken]
  have fields : (world.announced acceptor session).poolSession session =
      { life.poolSession session with socketStatus := .connected, acceptor := some acceptor } := by
    rw [announcement]
    exact Function.update_self ..
  have forgotten : (world.announced acceptor session).Forgotten session := by
    intro dead
    have alive : (life.poolSession session).alive = true := (sound.fits_of_split split).2.1
    rw [fields, alive] at dead
    contradiction
  have reported : (world.announced acceptor session).messages session = [] := by
    have unchanged := (@unheard_record U session (.onAccept session) rfl
      (world.openSession session fun s =>
        { s with socketStatus := .connected, acceptor := some acceptor })).messages
    exact unchanged.trans follows.messages
  generalize world.announced acceptor session = announced at awaits move fields forgotten reported ⊢
  have calls := @performAll_moves U callbacks .all announced
    (callbacks.onAccept acceptor (world.poolSession session).connIndex memory world.upper)
    (sound.move move) fun _ _ _ => trivial
  have unheard := @unheard_performAll U callbacks session
    (callbacks.onAccept acceptor (world.poolSession session).connIndex memory world.upper) announced
  have followed := (@follows_of_awaits U session [] announced _ awaits reported forgotten).unheard
    unheard
  apply follows_start (awaits.apiMoves calls) followed
  intro opened
  rcases unheard.opened opened with opening | ⟨_, owner, _⟩
  · exact absurd opening (not_opening_of_awaits awaits)
  · rw [owner, fields]
    rfl

theorem follows_handleAccept {acceptor : Nat} (sound : life.Sound)
    (split : life.pending = before ++ .handleAccept acceptor session :: after)
    (taken : world.toLifecycle = life.take (before ++ after))
    (follows : Follows [] session world) :
    Follows [] session (world.handleAccept callbacks acceptor session completion) := by
  by_cases failed : completion.error = 0
  · simp only [handleAccept, failed, ne_eq, not_true_eq_false, if_false]
    let counted := world.count fun s => { s with totalConneced := s.totalConneced + 1 }
    have counts : Follows [] session counted := follows.unheard (unheard_count _ world)
    refine Follows.unheard ?_ (unheard_acceptNext acceptor completion.memory _)
    cases completion.remoteError with
    | true => exact counts.unheard (unheard_handleExit session counted)
    | false => exact follows_acceptClient sound split taken counts
  · simp only [handleAccept, ne_eq, failed, not_false_eq_true, if_true]
    exact follows.unheard (unheard_destroySession session world)

theorem follows_connected {connector : Nat} (sound : life.Sound) (engaged : life.Engaged)
    (split : life.pending = before ++ .handleConnect connector session :: after)
    (taken : world.toLifecycle = life.take (before ++ after))
    (follows : Follows [] session world) :
    Follows [] session ((world.openSession session fun s =>
      { s with socketStatus := .connected }).start session) := by
  have pool : world.poolSession = life.poolSession := by
    rw [taken]
    rfl
  have alive : (life.poolSession session).alive = true := (sound.fits_of_split split).2.1
  have owned : (life.poolSession session).connector = some connector :=
    engaged _ (mem_of_split split)
  have opened := @openSession_toLifecycle U world session
    (fun s => { s with socketStatus := .connected }) (fun _ => pool ▸ alive)
  have awaits := @awaits_of_opens life before after _ session
    { life.poolSession session with socketStatus := .connected } sound split rfl rfl alive rfl
  have reported : (world.openSession session fun s =>
      { s with socketStatus := .connected }).messages session = [] := follows.messages
  generalize (world.openSession session fun s => { s with socketStatus := .connected }) = current
    at opened reported ⊢
  rw [taken] at opened
  have same : (life.take (before ++ after)).openSession session
      { life.poolSession session with socketStatus := .connected } = current.toLifecycle :=
    opened.symm
  rw [same] at awaits
  have fields : current.poolSession session =
      { life.poolSession session with socketStatus := .connected } := by
    rw [← same]
    exact Function.update_self ..
  have forgotten : current.Forgotten session := by
    intro dead
    rw [fields, alive] at dead
    contradiction
  apply follows_start awaits (follows_of_awaits awaits reported forgotten)
  intro _
  rw [fields, Session.owner, owned]
  cases (life.poolSession session).acceptor <;> rfl

theorem follows_handleConnect {connector : Nat} (sound : life.Sound) (engaged : life.Engaged)
    (split : life.pending = before ++ .handleConnect connector session :: after)
    (taken : world.toLifecycle = life.take (before ++ after))
    (follows : Follows [] session world) :
    Follows [] session (world.handleConnect callbacks connector session completion) := by
  by_cases failed : completion.error = 0
  · simp only [handleConnect, failed, ne_eq, not_true_eq_false, if_false]
    exact (follows_connected sound engaged split taken follows).unheard (unheard_onConnect _ _ _ _)
  · exact follows.unheard (unheard_handleConnect_failed connector session failed world)

theorem follows_handleReadSp {receive : Receive} (sound : life.Sound)
    (split : life.pending = before ++ .handleReadSp session receive :: after)
    (taken : world.toLifecycle = life.take (before ++ after))
    (messages : world.messages session = (Connection.start.run chunks).2)
    (forgotten : world.Forgotten session)
    (reads : world.IsOpen session → (world.poolSession session).owner.isSome = true ∧
      (Connection.start.run chunks).1 = ⟨(world.poolSession session).readState, some receive⟩) :
    Follows
      (if world.stopSocketFlag = false ∧ world.IsOpen session then chunks ++ [completion.bytes]
        else chunks)
      session (world.handleReadSp callbacks session receive completion) := by
  have pool : world.poolSession = life.poolSession := by
    rw [taken]
    rfl
  have awaiting : (world.use session).toLifecycle.Awaits session
      (life.poolSession session).readState :=
    awaits_of_receive sound split taken
  have window : ReadState.Window (life.poolSession session).readState receive :=
    (sound.fits_of_split split).2
  have stays : Follows chunks session (world.use session) :=
    follows_of_awaits awaiting messages forgotten
  rcases @handleReadSp_cases U callbacks .all life world before after completion session receive
    sound split taken with
    ⟨stopped, unchanged⟩ | ⟨starts, ⟨closed, used⟩ | ⟨outcome, posted, decides, finishes⟩⟩
  · have unread : ¬(world.stopSocketFlag = false ∧ world.IsOpen session) := by
      rintro ⟨running, _⟩
      exact absurd (running.symm.trans stopped) Bool.noConfusion
    rw [unchanged, if_neg unread]
    exact stays.unheard (.of_same rfl rfl rfl rfl)
  · have unread : ¬(world.stopSocketFlag = false ∧ world.IsOpen session) := by
      rintro ⟨_, _, notClosed⟩
      exact absurd (notClosed.symm.trans closed) Bool.noConfusion
    rw [used, if_neg unread]
    exact stays.unheard (.of_same rfl rfl rfl rfl)
  · have handles : world.stopSocketFlag = false ∧ world.IsOpen session ↔
        ((world.countRecv receive).use session).IsOpen session :=
      and_iff_right decides.running
    rw [finishes, if_congr handles rfl rfl]
    rw [pool] at reads
    exact follows_finishReadSp (sound.moves starts) decides.awaits decides.notClosed messages
      forgotten (pool ▸ reads) window decides.decided decides.stays decides.posts

end Handlers

/-! ## Runs -/

/-- The chunks when a handler runs: an open session hears the bytes its receive is completed
with. -/
def hears (chunks : Nat → List (List UInt8)) (world : World U) (completion : Completion) :
    Handler → Nat → List (List UInt8)
  | .handleReadSp session _ =>
      if world.stopSocketFlag = false ∧ world.IsOpen session then
        Function.update chunks session (chunks session ++ [completion.bytes])
      else chunks
  | _ => chunks

/-- The chunks after a step. -/
def hear (chunks : Nat → List (List UInt8)) (world : World U) :
    Label → Nat → List (List UInt8)
  | .complete index completion =>
      match world.pending[index]? with
      | some handler => hears chunks world completion handler
      | none => chunks
  | _ => chunks

/-- The service, with the chunks that every session has heard as a history. -/
def hearingService (callbacks : Callbacks U) (Upper : U → Prop) :
    Transition.System (World U × (Nat → List (List UInt8))) Label :=
  (service callbacks Upper).withHistory (fun _ => []) hear

/-- A handler that is no receive of the session is taken. -/
theorem unheard_take {handler : Handler} {before after : List Handler}
    (split : world.pending = before ++ handler :: after)
    (receives : receiveOf session handler = none) :
    Unheard session world { world with pending := before ++ after } where
  opening := by
    rintro (unallocated | ⟨other, other_mem, same, opens⟩)
    · exact .inl unallocated
    · exact .inr ⟨other, (sublist_of_split split).subset other_mem, same, opens⟩
  outstanding := by
    simp [outstanding, split, receives]
  messages := rfl
  forgotten := id
  opened opened := .inr ⟨opened, rfl, rfl⟩

theorem hears_self (chunks : Nat → List (List UInt8)) (world : World U) (completion : Completion)
    (receive : Receive) :
    hears chunks world completion (.handleReadSp session receive) session =
      if world.stopSocketFlag = false ∧ world.IsOpen session then
        chunks session ++ [completion.bytes]
      else chunks session := by
  simp only [hears]
  split
  · exact Function.update_self ..
  · rfl

theorem hears_other {target : Nat} (other : session ≠ target) (chunks : Nat → List (List UInt8))
    (world : World U) (completion : Completion) (receive : Receive) :
    hears chunks world completion (.handleReadSp target receive) session = chunks session := by
  simp only [hears]
  split
  · exact Function.update_of_ne other _ _
  · rfl

theorem follows_release (follows : Follows chunks session world) :
    Follows chunks session world.release where
  opening := by
    rintro (unallocated | ⟨handler, handler_mem, _⟩)
    · exact ⟨(follows.opening (.inl unallocated)).1, rfl⟩
    · contradiction
  messages := follows.messages
  forgotten _ := rfl
  reads opened := Bool.noConfusion opened.1

theorem follows_complete {handler : Handler} {before after : List Handler}
    {completion : Completion} {chunks : Nat → List (List UInt8)}
    (sound : world.toLifecycle.Sound) (engaged : world.toLifecycle.Engaged)
    (split : world.pending = before ++ handler :: after)
    (follows : Follows (chunks session) session world) :
    Follows (hears chunks world completion handler session) session
      (handle callbacks completion { world with pending := before ++ after } handler) := by
  -- nothing has been heard of a session whose opening completes
  have unopened (opens : handler.opens = true) (same : handler.session = session) :
      chunks session = [] :=
    (follows.opening (.inr ⟨handler, mem_of_split split, same, opens⟩)).1
  cases handler with
  | handleReadSp target receive =>
      by_cases same : session = target
      · subst same
        have outstanding : receive ∈ world.outstanding session :=
          List.mem_filterMap.mpr ⟨_, mem_of_split split, if_pos rfl⟩
        have taken : ({ world with pending := before ++ after } : World U).toLifecycle =
          world.toLifecycle.take (before ++ after) := rfl
        rw [hears_self]
        exact follows_handleReadSp sound split taken follows.messages follows.forgotten
          fun opened => follows.reads opened receive outstanding
      · rw [hears_other same]
        exact (follows.unheard (unheard_take split (if_neg (Ne.symm same)))).unheard
          (unheard_handleReadSp_other same receive completion _)
  | handleAccept acceptor target =>
      have taken := follows.unheard (unheard_take split rfl)
      by_cases same : session = target
      · subst same
        change Follows (chunks session) session _
        rw [unopened rfl rfl] at taken ⊢
        exact follows_handleAccept sound split rfl taken
      · exact taken.unheard (unheard_handleAccept_other same acceptor completion _)
  | handleConnect connector target =>
      have taken := follows.unheard (unheard_take split rfl)
      by_cases same : session = target
      · subst same
        change Follows (chunks session) session _
        rw [unopened rfl rfl] at taken ⊢
        exact follows_handleConnect sound engaged split rfl taken
      · exact taken.unheard (unheard_handleConnect_other same connector completion _)
  | handleWrite target length =>
      exact (follows.unheard (unheard_take split rfl)).unheard
        (unheard_handleWrite target length completion _)
  | handleExit target wait =>
      exact (follows.unheard (unheard_take split rfl)).unheard (unheard_handleExit target _)
  | handleDestory target wait =>
      exact (follows.unheard (unheard_take split rfl)).unheard (unheard_handleDestory target _)

theorem follows_step {label : Label} {chunks : Nat → List (List UInt8)}
    (sound : world.toLifecycle.Sound) (engaged : world.toLifecycle.Engaged)
    (steps : world.step callbacks label = some next)
    (follows : Follows (chunks session) session world) :
    Follows (hear chunks world label session) session next := by
  cases label with
  | complete index completion =>
      rcases complete_cases steps with ⟨handler, before, after, at_index, split, _, rfl⟩
      simp only [hear, at_index]
      exact follows_complete sound engaged split follows
  | call call =>
      rcases Option.some.inj steps with rfl
      exact follows.unheard (unheard_perform call world)
  | tick seconds =>
      rcases Option.some.inj steps with rfl
      exact follows.unheard (.of_same rfl rfl rfl rfl)
  | stop =>
      rcases Option.some.inj steps with rfl
      exact follows.unheard (.of_same rfl rfl rfl rfl)
  | removeAll =>
      rcases Option.some.inj steps with rfl
      exact follows.unheard (unheard_removeAllSession world)
  | release =>
      simp only [step, Option.ite_none_right_eq_some, Option.some.injEq] at steps
      rcases steps with ⟨_, rfl⟩
      exact follows_release follows

theorem follows_of_reachable {Upper : U → Prop} {both : World U × (Nat → List (List UInt8))}
    (reached : (hearingService callbacks Upper).Reachable both) (session : Nat) :
    Follows (both.2 session) session both.1 := by
  let heard (world : World U) (chunks : Nat → List (List UInt8)) : Prop :=
    Follows (chunks session) session world
  have starts : ∀ world, (service callbacks Upper).Initial world → heard world fun _ => [] := by
    rintro world ⟨upper, _, rfl⟩
    exact ⟨fun _ => ⟨rfl, rfl⟩, rfl, fun _ => rfl, fun opened => Bool.noConfusion opened.1⟩
  refine reached.history_invariant (fun _ _ _ => trivial) (fun _ => engaged_of_reachable) starts ?_
  intro world chunks label next known heard _ steps
  exact follows_step known.1 known.2 steps heard

/-- Whatever else the service does, what a session is told are the messages that the isolated
receiver makes of the session's own chunks, and while the session is open its outstanding receive
is the one the isolated receiver has. -/
theorem messages_eq_run {Upper : U → Prop} {both : World U × (Nat → List (List UInt8))}
    (reached : (hearingService callbacks Upper).Reachable both) (session : Nat) :
    both.1.messages session = (Connection.start.run (both.2 session)).2 ∧
      ∀ receive ∈ both.1.outstanding session, both.1.IsOpen session →
        (Connection.start.run (both.2 session)).1 =
          ⟨(both.1.poolSession session).readState, some receive⟩ := by
  have follows := follows_of_reachable reached session
  refine ⟨follows.messages, ?_⟩
  intro receive receive_mem opened
  exact (follows.reads opened receive receive_mem).2

/-- A client is accepted and sends a message of two bytes, its header first. -/
theorem messages_eq_run_two_chunks :
    ∃ both : World Unit × (Nat → List (List UInt8)), both.2 2 = [[2, 0, 0, 0], [7, 9]] ∧
      both.1.messages 2 = [[7, 9]] ∧
        both.1.messages 2 = (Connection.start.run (both.2 2)).2 := by
  have starts : (hearingService .silent fun _ => True).Initial (initial (), fun _ => []) :=
    ⟨⟨(), trivial, rfl⟩, rfl⟩
  have runs : ∃ both, (hearingService .silent fun _ => True).run (initial (), fun _ => [])
      [.call (.startListen 0 true), .complete 0 (.success []),
        .complete 0 (.success [2, 0, 0, 0]), .complete 1 (.success [7, 9])] = some both ∧
          both.2 2 = [[2, 0, 0, 0], [7, 9]] ∧ both.1.messages 2 = [[7, 9]] :=
    ⟨_, rfl, by decide, by decide⟩
  rcases runs with ⟨both, runs, chunks, messages⟩
  have reached := Transition.System.reachable_of_run starts runs
  exact ⟨both, chunks, messages, (messages_eq_run reached 2).1⟩

end World

end SunPush
