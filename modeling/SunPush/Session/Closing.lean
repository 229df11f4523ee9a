import SunPush.Session.Bookkeeping

/-!
# Closing after a delay

`AsyncClose` sets the session's timer; `handle_exit` closes the session when the
wait completes.  Setting the timer again cancels the wait, and a cancelled wait
completes at once: its handler has no error code to tell it from one whose time
has come.

A step makes the calls of at most one callback, or one call of a thread.  What it
does before and after them sets no timer of a session that stays open.
-/

namespace SunPush

open CInteger

namespace World

open Lifecycle

variable {U : Type} (callbacks : Callbacks U)

/-! ## The calls of a step -/

/-- The world in which the first of the calls is made that a callback has decided on. -/
def answered (world : World U) (result : U × List ApiCall) : World U × List ApiCall :=
  ({ world with upper := result.1 }, result.2)

/-- The calls that `OnReadComplete` makes if there is a message. -/
def callsOnRead (session : Nat) (message : Option (NetMsg × Int)) (world : World U) :
    World U × List ApiCall :=
  match message, (world.poolSession session).owner with
  | some (msg, length), some owner =>
      ((world.count fun s => { s with totalMsgRecvCount := s.totalMsgRecvCount + 1 }).use
        session |>.record (.onReadComplete session (msg.message length))).answered
          (callbacks.onReadComplete owner (world.poolSession session).connIndex msg length
            world.upper)
  | _, _ => (world, [])

/-- The calls that `OnSend` makes. -/
def callsOnSend (session : Nat) (length : Int) (world : World U) : World U × List ApiCall :=
  match (world.poolSession session).owner with
  | none => (world, [])
  | some owner =>
      ((world.use session).record (.onSend session length)).answered
        (callbacks.onSend owner (world.poolSession session).connIndex length world.upper)

/-- The calls that `OnConnect` makes. -/
def callsOnConnect (connector session : Nat) (errorCode : Int) (world : World U) :
    World U × List ApiCall :=
  ((world.use session).record (.onConnect session errorCode)).answered
    (callbacks.onConnect connector (world.poolSession session).connIndex errorCode world.upper)

/-- The world in which `handle_read_sp` has stored its counters. -/
def storing (session : Nat) (receive : Receive) (outcome : ReadOutcome) (world : World U) :
    World U :=
  ((world.count fun s => { s with totalDataRecv := s.totalDataRecv + receive.recvLength }).use
    session).modify session fun s => { s with readState := outcome.state }

/-- The calls that the callback of a handler makes, and the world in which it makes the first. -/
def callsOf (completion : Completion) (world : World U) : Handler → World U × List ApiCall
  | .handleAccept acceptor session =>
      if completion.error ≠ 0 ∨ completion.remoteError = true then (world, [])
      else
        (world.accepting acceptor session).answered
          (callbacks.onAccept acceptor (world.poolSession session).connIndex
            completion.upperMemory world.upper)
  | .handleConnect connector session =>
      if completion.error = 0 then
        (world.connecting session).callsOnConnect callbacks connector session completion.error
      else if world.stopSocketFlag then (world, [])
      else (world.refuse connector session).callsOnConnect callbacks connector session
        completion.error
  | .handleReadSp session receive =>
      if world.stopSocketFlag ∨ (world.poolSession session).isClosed then (world, [])
      else
        let outcome := (world.poolSession session).readState.handleReadSp
          (receive.msg.place receive.recvOffset completion.bytes) (toSizeT receive.recvLength)
          completion.wouldBlock
        (world.storing session receive outcome).callsOnRead callbacks session outcome.deliver
  | .handleWrite session length =>
      if (world.poolSession session).isClosed then (world, [])
      else (world.use session).callsOnSend callbacks session length
  | .handleExit _ _ => (world, [])
  | .handleDestory _ _ => (world, [])

/-- The calls into the socket layer that a step makes, and the world in which it makes the first. -/
def calls (world : World U) : Label → World U × List ApiCall
  | .complete index completion =>
      match world.pending[index]? with
      | none => (world, [])
      | some handler =>
          (world.take (world.pending.eraseIdx index)).callsOf callbacks completion handler
  | .call call => (world, [call])
  | _ => (world, [])

/-! ## The delays that are asked for -/

/-- What a call asks for: the session, and the time when the delay has elapsed. -/
def asks (world : World U) : ApiCall → List (Nat × Int)
  | .asyncClose connectID waitSeconds =>
      match world.getSession connectID with
      | none => []
      | some session => if waitSeconds ≠ 0 then [(session, world.clock + waitSeconds)] else []
  | _ => []

/-- What several calls ask for, made one after the other. -/
def asksAll : World U → List ApiCall → List (Nat × Int)
  | _, [] => []
  | world, call :: rest => world.asks call ++ asksAll (world.perform callbacks call) rest

/-- The service with everything asked for so far. -/
def askingService (Upper : U → Prop) :
    Transition.System (World U × List (Nat × Int)) Label :=
  (service callbacks Upper).withHistory [] fun asked world label =>
    asked ++ asksAll callbacks (world.calls callbacks label).1 (world.calls callbacks label).2

/-- A delay asked for the session has elapsed. -/
def Elapsed (world : World U) (asked : List (Nat × Int)) (session : Nat) : Prop :=
  ∃ due, (session, due) ∈ asked ∧ due ≤ world.clock

/-- The session is constructed and not closed. -/
def IsOpen (world : World U) (session : Nat) : Prop :=
  (world.poolSession session).alive = true ∧ (world.poolSession session).isClosed = false

/-- A wait that was set by `AsyncClose` completes for an open session only when a delay asked for
has elapsed. -/
def ClosesOnTime (world : World U) (asked : List (Nat × Int)) (session : Nat) : Prop :=
  ∀ index completion wait next, world.pending[index]? = some (.handleExit session wait) →
    world.step callbacks (.complete index completion) = some next → world.IsOpen session →
      world.Elapsed asked session

/-- The call sets no timer that is set already, unless a delay has elapsed. -/
def SetsOnce (world : World U) (asked : List (Nat × Int)) : ApiCall → Prop
  | .asyncClose connectID waitSeconds =>
      ∀ session, world.getSession connectID = some session → 0 < waitSeconds →
        (∀ wait, .handleExit session wait ∉ world.pending) ∨ world.Elapsed asked session
  | _ => True

/-- None of the calls does, made one after the other. -/
def SetOnce : World U → List (Nat × Int) → List ApiCall → Prop
  | _, _, [] => True
  | world, asked, call :: rest =>
      world.SetsOnce asked call ∧
        SetOnce (world.perform callbacks call) (asked ++ world.asks call) rest

/-- No call of the step does. -/
def StepSetsOnce (both : World U × List (Nat × Int)) (label : Label) : Prop :=
  SetOnce callbacks (both.1.calls callbacks label).1 both.2 (both.1.calls callbacks label).2

/-! ## What sets no timer -/

variable {callbacks}

/-- Time does not run back, and a wait that is found for an open session was there before. -/
structure Undisturbed (session : Nat) (world next : World U) : Prop where
  clock : world.clock ≤ next.clock
  waits : ∀ wait, .handleExit session wait ∈ next.pending → next.IsOpen session →
    .handleExit session wait ∈ world.pending ∧ world.IsOpen session

namespace Undisturbed

variable {session : Nat} {world middle next : World U}

theorem refl (session : Nat) (world : World U) : Undisturbed session world world :=
  ⟨Int.le_refl _, fun _ pending opened => ⟨pending, opened⟩⟩

theorem trans (first : Undisturbed session world middle)
    (second : Undisturbed session middle next) : Undisturbed session world next := by
  refine ⟨Int.le_trans first.clock second.clock, ?_⟩
  intro wait pending opened
  rcases second.waits wait pending opened with ⟨middlePending, middleOpened⟩
  exact first.waits wait middlePending middleOpened

theorem of_fields (clock : world.clock ≤ next.clock)
    (alive : (next.poolSession session).alive = (world.poolSession session).alive)
    (status : (next.poolSession session).socketStatus =
      (world.poolSession session).socketStatus)
    (waits : ∀ wait, .handleExit session wait ∈ next.pending →
      .handleExit session wait ∈ world.pending) : Undisturbed session world next := by
  refine ⟨clock, ?_⟩
  rintro wait pending ⟨nextAlive, notClosed⟩
  refine ⟨waits wait pending, alive ▸ nextAlive, ?_⟩
  rw [Session.isClosed, status] at notClosed
  exact notClosed

theorem of_same (clock : next.clock = world.clock) (pool : next.poolSession = world.poolSession)
    (pending : next.pending = world.pending) : Undisturbed session world next := by
  apply of_fields (Int.le_of_eq clock.symm)
  · rw [pool]
  · rw [pool]
  · rw [pending]
    exact fun _ mem => mem

theorem of_not_open (clock : world.clock ≤ next.clock) (notOpen : ¬next.IsOpen session) :
    Undisturbed session world next :=
  ⟨clock, fun _ _ opened => absurd opened notOpen⟩

end Undisturbed

section Parts

variable {session target : Nat} {world : World U}

theorem mem_of_post {handler : Handler} {wait : Wait}
    (other : ∀ wait, handler ≠ .handleExit session wait)
    (mem : .handleExit session wait ∈ (world.post handler).pending) :
    .handleExit session wait ∈ world.pending := by
  rcases List.mem_append.mp mem with earlier | added
  · exact earlier
  · rw [List.mem_singleton] at added
    exact absurd added.symm (other wait)

theorem of_cancel_eq {handler : Handler} {wait : Wait}
    (cancelled : handler.cancel target = .handleExit session wait) :
    ∃ earlier, handler = .handleExit session earlier ∧
      wait = if session = target then { earlier with cancelled := true } else earlier := by
  cases handler with
  | handleExit owner earlier =>
      simp only [Handler.cancel, Handler.handleExit.injEq] at cancelled
      rcases cancelled with ⟨rfl, rfl⟩
      exact ⟨earlier, rfl, rfl⟩
  | _ => contradiction

theorem mem_of_cancel {pending : List Handler} {wait : Wait} (other : session ≠ target)
    (mem : .handleExit session wait ∈ pending.map (Handler.cancel target)) :
    .handleExit session wait ∈ pending := by
  rcases List.mem_map.mp mem with ⟨handler, handler_mem, cancelled⟩
  rcases of_cancel_eq cancelled with ⟨earlier, rfl, unchanged⟩
  rw [if_neg other] at unchanged
  exact unchanged ▸ handler_mem

theorem undisturbed_use : Undisturbed session world (world.use target) :=
  .of_same rfl rfl rfl

theorem undisturbed_count (change : Statistics → Statistics) :
    Undisturbed session world (world.count change) :=
  .of_same rfl rfl rfl

theorem undisturbed_record (event : Event) : Undisturbed session world (world.record event) :=
  .of_same rfl rfl rfl

theorem undisturbed_modify (change : Session → Session) (other : session ≠ target) :
    Undisturbed session world (world.modify target change) := by
  have fields : (world.modify target change).poolSession session = world.poolSession session :=
    Function.update_of_ne other _ _
  exact .of_fields (Int.le_refl _) (by rw [fields]) (by rw [fields]) fun _ mem => mem

theorem undisturbed_expiresFromNow (other : session ≠ target) :
    Undisturbed session world (world.expiresFromNow target) :=
  .of_fields (Int.le_refl _) rfl rfl fun _ mem => mem_of_cancel other mem

theorem undisturbed_destroySession : Undisturbed session world (world.destroySession target) := by
  by_cases same : session = target
  · subst same
    refine .of_not_open (Int.le_refl _) ?_
    rintro ⟨alive, -⟩
    simp [destroySession, use, modify, expiresFromNow, count, Session.destruct] at alive
  · apply undisturbed_use.trans
    apply (undisturbed_modify Session.destruct same).trans
    apply (undisturbed_expiresFromNow same).trans
    exact undisturbed_count fun s => { s with totalSession := s.totalSession - 1 }

theorem handleExit_clock (target : Nat) (world : World U) :
    (world.handleExit callbacks target).clock = world.clock := by
  simp only [handleExit]
  split
  · rfl
  · have leaves (current : World U) : (current.leaveMap target).clock = current.clock := by
      rw [leaveMap]
      split <;> rfl
    rw [leaves]
    exact tellClosed_toLifecycle target _ |>.2

/-- `handle_exit` closes its session, and sets and cancels no timer of another one. -/
theorem undisturbed_handleExit :
    Undisturbed session world (world.handleExit callbacks target) := by
  have clock : world.clock ≤ (world.handleExit callbacks target).clock := by
    rw [handleExit_clock]
  by_cases closed : (world.poolSession target).isClosed = true
  · have unchanged : (world.handleExit callbacks target).toLifecycle =
        world.toLifecycle.use target := handleExit_of_closed closed
    apply Undisturbed.of_fields clock
    · rw [unchanged]
      rfl
    · rw [unchanged]
      rfl
    · rw [unchanged]
      exact fun _ mem => mem
  · have exits : (world.handleExit callbacks target).toLifecycle =
        (world.toLifecycle.use target).exit target (world.clock + 10) :=
      handleExit_of_notClosed closed
    by_cases same : session = target
    · subst same
      apply Undisturbed.of_not_open clock
      rintro ⟨-, notClosed⟩
      rw [exits, exit_poolSession, Function.update_self] at notClosed
      simp [Lifecycle.closed, Session.isClosed] at notClosed
    · have fields : (world.handleExit callbacks target).poolSession session =
          world.poolSession session := by
        rw [exits, exit_poolSession, Function.update_of_ne same]
        rfl
      apply Undisturbed.of_fields clock
      · rw [fields]
      · rw [fields]
      · intro wait mem
        rw [exits] at mem
        rcases exit_pending (world.toLifecycle.use target) target (world.clock + 10) with
          unchanged | replaced
        · rwa [unchanged] at mem
        · rw [replaced, List.mem_append, List.mem_singleton] at mem
          rcases mem with earlier | added
          · exact mem_of_cancel same earlier
          · contradiction

theorem undisturbed_post {handler : Handler}
    (other : ∀ wait, handler ≠ .handleExit session wait) :
    Undisturbed session world (world.post handler) :=
  .of_fields (Int.le_refl _) rfl rfl fun _ mem => mem_of_post other mem

theorem undisturbed_readState (state : ReadState) :
    Undisturbed session world (world.modify target fun s => { s with readState := state }) := by
  by_cases same : session = target
  · subst same
    refine .of_fields (Int.le_refl _) ?_ ?_ fun _ mem => mem
    · simp [modify]
    · simp [modify]
  · exact undisturbed_modify _ same

theorem undisturbed_receiveSp (receive : Receive) :
    Undisturbed session world (world.receiveSp target receive) :=
  undisturbed_use.trans (undisturbed_post fun _ => Handler.noConfusion)

theorem undisturbed_start : Undisturbed session world (world.start target) :=
  (undisturbed_use.trans (undisturbed_readState _)).trans (undisturbed_receiveSp _)

theorem undisturbed_sendSession {length : Int} :
    Undisturbed session world (world.sendSession target length) := by
  rw [sendSession]
  split
  · exact undisturbed_use
  · have posts : Undisturbed session (world.use target)
        ((world.use target).post (.handleWrite target length)) :=
      undisturbed_post fun _ => Handler.noConfusion
    exact (undisturbed_use.trans posts).trans (.of_same rfl rfl rfl)

/-- A session that is opened was constructed and not closed before. -/
theorem undisturbed_openSession {change : Session → Session} (opened : world.IsOpen target) :
    Undisturbed session world (world.openSession target change) := by
  refine ⟨Int.le_refl _, ?_⟩
  intro wait mem nextOpened
  refine ⟨mem, ?_⟩
  by_cases same : session = target
  · exact same ▸ opened
  · have fields : (world.openSession target change).poolSession session =
        world.poolSession session := Function.update_of_ne same _ _
    rw [IsOpen, fields] at nextOpened
    exact nextOpened

/-- A session that is allocated has no handlers yet. -/
theorem undisturbed_allocate {next : World U} {fields : Session} {handler : Handler}
    (unused : ∀ wait, .handleExit (world.currentConnexindex + 1) wait ∉ world.pending)
    (other : ∀ wait, handler ≠ .handleExit session wait) (clock : next.clock = world.clock)
    (allocates : next.toLifecycle = (world.toLifecycle.allocate fields).queue handler) :
    Undisturbed session world next := by
  refine ⟨Int.le_of_eq clock.symm, ?_⟩
  intro wait mem opened
  rw [allocates] at mem
  have earlier : .handleExit session wait ∈ world.pending := mem_of_post other mem
  refine ⟨earlier, ?_⟩
  have different : session ≠ world.currentConnexindex + 1 := by
    rintro rfl
    exact unused wait earlier
  have same : next.poolSession session = world.poolSession session := by
    rw [allocates]
    exact Function.update_of_ne different _ _
  rw [IsOpen, same] at opened
  exact opened

theorem undisturbed_acceptNext {acceptor : Nat} {memory : Bool}
    (unused : ∀ wait, .handleExit (world.currentConnexindex + 1) wait ∉ world.pending) :
    Undisturbed session world (world.acceptNext acceptor memory) := by
  cases memory with
  | false => exact .refl session world
  | true => exact undisturbed_allocate unused (fun _ => Handler.noConfusion) rfl rfl

theorem unused_of_sound (sound : world.toLifecycle.Sound) :
    ∀ wait, .handleExit (world.currentConnexindex + 1) wait ∉ world.pending := by
  intro wait mem
  exact sound.next_unused.1 _ mem rfl

/-- A call other than `AsyncClose` sets no timer. -/
theorem undisturbed_perform {call : ApiCall} (sound : world.toLifecycle.Sound)
    (other : ∀ connectID waitSeconds, call ≠ .asyncClose connectID waitSeconds) :
    Undisturbed session world (world.perform callbacks call) := by
  have closes (connectID : Int) :
      Undisturbed session world (world.closeSocket callbacks connectID) := by
    rw [closeSocket]
    split
    · exact .refl session world
    · exact undisturbed_handleExit
  cases call with
  | send connectID encode =>
      simp only [perform]
      split
      · exact undisturbed_sendSession
      · exact .refl session world
  | closeSocket connectID => exact closes connectID
  | asyncClose connectID waitSeconds => exact absurd rfl (other connectID waitSeconds)
  | startListen acceptor memory =>
      simp only [perform, startListen]
      split
      · exact .refl session world
      · cases memory with
        | false => exact .refl session world
        | true =>
            exact undisturbed_allocate (unused_of_sound sound) (fun _ => Handler.noConfusion) rfl
              rfl
  | stopListen acceptor failed =>
      cases failed with
      | true => exact .refl session world
      | false => exact .of_same rfl rfl rfl
  | asyncConnect connector memory =>
      simp only [perform, asyncConnect]
      split
      · exact .refl session world
      · cases memory with
        | false => exact .of_same rfl rfl rfl
        | true =>
            simp only [allocSession, modify, count, post, if_true, Function.update_self,
              Function.update_idem]
            exact undisturbed_allocate (unused_of_sound sound) (fun _ => Handler.noConfusion) rfl
              rfl
  | disConnect connector =>
      simp only [perform]
      split
      · exact .refl session world
      · exact closes _

end Parts

/-! ## The waits that were asked for -/

/-- The waits of an open session are as they were asked for, or a delay has elapsed. -/
def WaitsAsked (world : World U) (asked : List (Nat × Int)) (session : Nat) : Prop :=
  world.IsOpen session → ∀ wait, .handleExit session wait ∈ world.pending →
    world.Elapsed asked session ∨ wait.cancelled = false ∧ (session, wait.due) ∈ asked

section Waits

variable {session : Nat} {world next : World U} {asked : List (Nat × Int)}

theorem Elapsed.later (elapsed : world.Elapsed asked session) (clock : world.clock ≤ next.clock)
    (more : List (Nat × Int)) : next.Elapsed (asked ++ more) session := by
  rcases elapsed with ⟨due, due_mem, due_le⟩
  exact ⟨due, List.mem_append_left _ due_mem, Int.le_trans due_le clock⟩

theorem WaitsAsked.undisturbed (waits : world.WaitsAsked asked session)
    (undisturbed : Undisturbed session world next) : next.WaitsAsked asked session := by
  intro nextOpened wait mem
  rcases undisturbed.waits wait mem nextOpened with ⟨earlier, opened⟩
  rcases waits opened wait earlier with elapsed | asWas
  · left
    simpa using elapsed.later undisturbed.clock []
  · exact .inr asWas

theorem WaitsAsked.append (waits : world.WaitsAsked asked session) (more : List (Nat × Int)) :
    world.WaitsAsked (asked ++ more) session := by
  intro opened wait mem
  rcases waits opened wait mem with elapsed | ⟨running, due_mem⟩
  · exact .inl (elapsed.later (Int.le_refl _) more)
  · exact .inr ⟨running, List.mem_append_left _ due_mem⟩

/-- `AsyncClose` with a delay: the wait is set as it is asked for, and the earlier waits of the
session are cancelled, which is harmless if there are none or a delay has elapsed. -/
theorem waitsAsked_close {target : Nat} {waitSeconds : Int} (waits : world.WaitsAsked asked session)
    (delayed : waitSeconds ≠ 0)
    (once : 0 < waitSeconds → (∀ wait, .handleExit target wait ∉ world.pending) ∨
      world.Elapsed asked target) :
    (world.close callbacks target waitSeconds).WaitsAsked
      (asked ++ [(target, world.clock + waitSeconds)]) session := by
  simp only [close, if_pos delayed]
  by_cases same : session = target
  · subst same
    intro opened wait mem
    rcases List.mem_append.mp mem with earlier | added
    · left
      rcases List.mem_map.mp earlier with ⟨handler, handler_mem, cancelled⟩
      rcases Int.lt_or_le 0 waitSeconds with positive | notPositive
      · rcases once positive with unset | elapsed
        · rcases of_cancel_eq cancelled with ⟨before, rfl, -⟩
          exact absurd handler_mem (unset before)
        · exact elapsed.later (Int.le_refl _) _
      · refine ⟨world.clock + waitSeconds, ?_, ?_⟩
        · exact List.mem_append_right _ List.mem_cons_self
        · change world.clock + waitSeconds ≤ world.clock
          omega
    · right
      rw [List.mem_singleton, Handler.handleExit.injEq] at added
      rcases added with ⟨-, rfl⟩
      exact ⟨rfl, List.mem_append_right _ List.mem_cons_self⟩
  · have others : Undisturbed session world (((world.use target).expiresFromNow target).post
        (.handleExit target ⟨world.clock + waitSeconds, false⟩)) := by
      refine (undisturbed_use.trans (undisturbed_expiresFromNow same)).trans (undisturbed_post ?_)
      intro wait posted
      rw [Handler.handleExit.injEq] at posted
      exact same posted.1.symm
    exact (waits.undisturbed others).append _

theorem waitsAsked_perform {call : ApiCall} (sound : world.toLifecycle.Sound)
    (once : world.SetsOnce asked call) (waits : world.WaitsAsked asked session) :
    (world.perform callbacks call).WaitsAsked (asked ++ world.asks call) session := by
  cases call with
  | asyncClose connectID waitSeconds =>
      cases found : world.getSession connectID with
      | none =>
          simp only [perform, asks, found, List.append_nil]
          exact waits
      | some target =>
          simp only [perform, asks, found]
          by_cases delayed : waitSeconds = 0
          · rw [if_neg (not_not.mpr delayed), List.append_nil, close,
              if_neg (not_not.mpr delayed)]
            exact waits.undisturbed undisturbed_handleExit
          · rw [if_pos delayed]
            exact waitsAsked_close waits delayed (once target found)
  | _ =>
      rw [asks, List.append_nil]
      · apply waits.undisturbed (undisturbed_perform sound _)
        intro connectID waitSeconds
        exact ApiCall.noConfusion
      · intro connectID waitSeconds
        exact ApiCall.noConfusion

theorem waitsAsked_performs {calls : List ApiCall} (sound : world.toLifecycle.Sound)
    (once : SetOnce callbacks world asked calls) (waits : world.WaitsAsked asked session) :
    (calls.foldl (perform callbacks) world).WaitsAsked (asked ++ asksAll callbacks world calls)
        session ∧
      (calls.foldl (perform callbacks) world).toLifecycle.Sound := by
  induction calls generalizing world asked with
  | nil =>
      rw [asksAll, List.append_nil]
      exact ⟨waits, sound⟩
  | cons call rest ih =>
      have moves : ApiMoves .all world.toLifecycle (world.perform callbacks call).toLifecycle :=
        perform_moves sound fun _ => trivial
      rw [asksAll, ← List.append_assoc]
      exact ih (sound.apiMoves moves) once.2 (waitsAsked_perform sound once.1 waits)

end Waits

/-! ## The handlers -/

/-- From `world` to `next`, nothing but the calls that are made sets or cancels a timer of the
session while it stays open. -/
structure Splits (callbacks : Callbacks U) (session : Nat) (world : World U)
    (made : World U × List ApiCall) (next : World U) : Prop where
  sound : made.1.toLifecycle.Sound
  before : Undisturbed session world made.1
  after : Undisturbed session (made.2.foldl (perform callbacks) made.1) next

section Handlers

variable {session : Nat} {world : World U} {before after : List Handler} {completion : Completion}

theorem undisturbed_take {handler : Handler}
    (split : world.pending = before ++ handler :: after) :
    Undisturbed session world (world.take (before ++ after)) :=
  .of_fields (Int.le_refl _) rfl rfl fun _ mem =>
    (sublist_of_split split).subset mem

theorem splits_of_no_calls {handler : Handler} {next : World U} (sound : world.toLifecycle.Sound)
    (split : world.pending = before ++ handler :: after)
    (rest : Undisturbed session (world.take (before ++ after)) next) :
    Splits callbacks session world (world.take (before ++ after), []) next :=
  ⟨sound.take (sublist_of_split split), undisturbed_take split, rest⟩

theorem isOpen_of_opens {handler : Handler} (sound : world.toLifecycle.Sound)
    (split : world.pending = before ++ handler :: after) (opens : handler.opens = true) :
    world.IsOpen handler.session := by
  have fits := (sound.fits_of_split split).2.of_opens opens
  exact ⟨fits.1, fits.2.1⟩

/-- The calls of a callback are made in a world in which the handler has set no timer. -/
theorem splits_of_callback {current : World U} {result : U × List ApiCall} {next : World U}
    (sound : current.toLifecycle.Sound) (before : Undisturbed session world current)
    (after : Undisturbed session (current.performAll callbacks result) next) :
    Splits callbacks session world (current.answered result) next :=
  ⟨sound, before.trans (.of_same rfl rfl rfl), after⟩

theorem undisturbed_accepting {acceptor target : Nat} (opened : world.IsOpen target) :
    Undisturbed session world (world.accepting acceptor target) := by
  have stillOpen : (world.count fun s =>
    { s with totalConneced := s.totalConneced + 1 }).IsOpen target := opened
  have opens := @undisturbed_openSession U session target _ (fun s =>
    { s with socketStatus := .connected, acceptor := some acceptor }) stillOpen
  apply (undisturbed_count _).trans
  apply opens.trans
  exact undisturbed_record _

theorem splits_handleAccept {acceptor target : Nat} (sound : world.toLifecycle.Sound)
    (split : world.pending = before ++ .handleAccept acceptor target :: after) :
    Splits callbacks session world
      ((world.take (before ++ after)).callsOf callbacks completion (.handleAccept acceptor target))
      ((world.take (before ++ after)).handleAccept callbacks acceptor target completion) := by
  by_cases failed : completion.error = 0
  · have counted : ((world.take (before ++ after)).count fun s =>
        { s with totalConneced := s.totalConneced + 1 }).toLifecycle =
          world.toLifecycle.take (before ++ after) := rfl
    cases remote : completion.remoteError with
    | true =>
        have drops : Moves .all world.toLifecycle _ :=
          @dropped_moves U callbacks .all _ _ before after acceptor target sound split counted
        simp only [callsOf, handleAccept, failed, remote, ne_eq, not_true_eq_false, if_false,
          or_true, if_true]
        apply splits_of_no_calls sound split
        apply (undisturbed_count _).trans
        apply undisturbed_handleExit.trans
        apply undisturbed_acceptNext
        exact unused_of_sound (sound.moves drops)
    | false =>
        have serves : Moves .all world.toLifecycle _ :=
          @acceptClient_moves U callbacks .all _ _ before after acceptor target
            completion.upperMemory sound split counted trivial fun _ _ _ => trivial
        have move := @Move.accepted .all world.toLifecycle acceptor target before after split
          trivial
        rw [← announced_toLifecycle sound split counted] at move
        simp only [callsOf, handleAccept, failed, remote, ne_eq, not_true_eq_false, if_false,
          or_self, Bool.false_eq_true]
        apply splits_of_callback (sound.move move)
        · apply (undisturbed_take split).trans
          apply undisturbed_accepting
          exact isOpen_of_opens sound split rfl
        · rw [acceptClient_eq sound split counted] at serves ⊢
          apply undisturbed_start.trans
          apply undisturbed_acceptNext
          exact unused_of_sound (sound.moves serves)
  · simp only [callsOf, handleAccept, failed, ne_eq, not_false_eq_true, true_or, if_true]
    exact splits_of_no_calls sound split undisturbed_destroySession

theorem undisturbed_error :
    Undisturbed session world (world.modify target fun s => { s with socketStatus := .error }) := by
  by_cases same : session = target
  · subst same
    refine .of_not_open (Int.le_refl _) ?_
    rintro ⟨-, notClosed⟩
    simp [modify, Session.isClosed] at notClosed
  · exact undisturbed_modify _ same

theorem undisturbed_refuse {connector : Nat} :
    Undisturbed session world (world.refuse connector target) := by
  apply (undisturbed_count _).trans
  apply undisturbed_use.trans
  apply undisturbed_error.trans
  apply undisturbed_destroySession.trans
  exact .of_same rfl rfl rfl

theorem splits_onConnect {current : World U} {connector target : Nat} {errorCode : Int}
    (sound : (current.use target).toLifecycle.Sound)
    (before : Undisturbed session world current) :
    Splits callbacks session world (current.callsOnConnect callbacks connector target errorCode)
      (current.onConnect callbacks connector target errorCode) := by
  apply splits_of_callback
  · exact sound.note _
  · apply before.trans
    exact undisturbed_use.trans (undisturbed_record _)
  · exact .refl _ _

theorem splits_handleConnect {connector target : Nat} (sound : world.toLifecycle.Sound)
    (split : world.pending = before ++ .handleConnect connector target :: after) :
    Splits callbacks session world
      ((world.take (before ++ after)).callsOf callbacks completion
        (.handleConnect connector target))
      ((world.take (before ++ after)).handleConnect callbacks connector target completion) := by
  have taken := @undisturbed_take U session world before after _ split
  by_cases failed : completion.error = 0
  · have moves : Moves .all world.toLifecycle
        ((world.take (before ++ after)).connecting target).toLifecycle :=
      connected_moves sound split rfl
    have opens := @undisturbed_openSession U session target (world.take (before ++ after))
      (fun s => { s with socketStatus := .connected }) (isOpen_of_opens sound split rfl)
    simp only [callsOf, handleConnect, failed, ne_eq, not_true_eq_false, if_false, if_true]
    apply splits_onConnect ((sound.moves moves).use target)
    apply taken.trans
    exact opens.trans undisturbed_start
  · simp only [callsOf, handleConnect, failed, ne_eq, not_false_eq_true, if_true, if_false]
    by_cases stopped : (world.take (before ++ after)).stopSocketFlag = true
    · simp only [stopped, if_true]
      exact splits_of_no_calls sound split (.refl _ _)
    · simp only [stopped]
      have move := @Move.failed .all world.toLifecycle connector target before after split trivial
      apply splits_onConnect
      · rw [refuse_toLifecycle sound split]
        exact sound.move move
      · exact taken.trans undisturbed_refuse

theorem Splits.followed {made : World U × List ApiCall} {next last : World U}
    (splits : Splits callbacks session world made next) (rest : Undisturbed session next last) :
    Splits callbacks session world made last :=
  ⟨splits.sound, splits.before, splits.after.trans rest⟩

theorem splits_onSend {current : World U} {target : Nat} {length : Int}
    (sound : current.toLifecycle.Sound) (before : Undisturbed session world current) :
    Splits callbacks session world (current.callsOnSend callbacks target length)
      (current.onSend callbacks target length) := by
  have owner : ((current.use target).poolSession target).owner =
      (current.poolSession target).owner := rfl
  simp only [callsOnSend, onSend, owner]
  cases (current.poolSession target).owner with
  | none => exact ⟨sound, before, undisturbed_use⟩
  | some owner =>
      apply splits_of_callback
      · exact (sound.use target).note _
      · apply before.trans
        exact undisturbed_use.trans (undisturbed_record _)
      · exact .refl _ _

theorem splits_handleWrite {target : Nat} {length : Int} (sound : world.toLifecycle.Sound)
    (split : world.pending = before ++ .handleWrite target length :: after) :
    Splits callbacks session world
      ((world.take (before ++ after)).callsOf callbacks completion (.handleWrite target length))
      ((world.take (before ++ after)).handleWrite callbacks target length completion) := by
  have starts : Moves .all world.toLifecycle
      ((world.take (before ++ after)).use target).toLifecycle := taken_moves split (.inl rfl) rfl
  have begins : Undisturbed session world ((world.take (before ++ after)).use target) :=
    (undisturbed_take split).trans undisturbed_use
  have unused : (((world.take (before ++ after)).use target).poolSession target).isClosed =
      ((world.take (before ++ after)).poolSession target).isClosed := rfl
  simp only [callsOf, handleWrite, unused]
  split
  · exact splits_of_no_calls sound split undisturbed_use
  · have sends := @splits_onSend U callbacks session world _ target length (sound.moves starts)
      begins
    exact sends.followed (undisturbed_count _)

theorem splits_deliver {current : World U} {target : Nat} {message : Option (NetMsg × Int)}
    (sound : current.toLifecycle.Sound) (before : Undisturbed session world current) :
    Splits callbacks session world (current.callsOnRead callbacks target message)
      (current.deliver callbacks target message) := by
  rcases message with _ | ⟨msg, length⟩
  · exact ⟨sound, before, .refl _ _⟩
  · have owner : (((current.count fun s =>
        { s with totalMsgRecvCount := s.totalMsgRecvCount + 1 }).use target).poolSession
          target).owner = (current.poolSession target).owner := rfl
    simp only [callsOnRead, deliver, onReadComplete, owner]
    cases (current.poolSession target).owner with
    | none => exact ⟨sound, before, (undisturbed_count _).trans undisturbed_use⟩
    | some owner =>
        apply splits_of_callback
        · exact (sound.use target).note _
        · apply before.trans
          apply (undisturbed_count _).trans
          exact undisturbed_use.trans (undisturbed_record _)
        · exact .refl _ _

theorem splits_finishReadSp {current : World U} {target : Nat} {outcome : ReadOutcome}
    (sound : (current.modify target fun s =>
      { s with readState := outcome.state }).toLifecycle.Sound)
    (before : Undisturbed session world current) :
    Splits callbacks session world
      ((current.modify target fun s => { s with readState := outcome.state }).callsOnRead
        callbacks target outcome.deliver)
      (current.finishReadSp callbacks target outcome) := by
  have reads := @splits_deliver U callbacks session world _ target outcome.deliver sound
    (before.trans (undisturbed_readState outcome.state))
  simp only [finishReadSp]
  generalize (current.modify target fun s => { s with readState := outcome.state }).deliver
    callbacks target outcome.deliver = delivered at reads ⊢
  apply reads.followed
  cases outcome.receive with
  | none =>
      simp only
      split
      · exact undisturbed_handleExit
      · exact .refl _ _
  | some receive =>
      have receives : Undisturbed session delivered (delivered.receiveSp target receive) :=
        undisturbed_receiveSp receive
      simp only
      split
      · exact receives.trans undisturbed_handleExit
      · exact receives

theorem splits_handleReadSp {target : Nat} {receive : Receive} (sound : world.toLifecycle.Sound)
    (split : world.pending = before ++ .handleReadSp target receive :: after) :
    Splits callbacks session world
      ((world.take (before ++ after)).callsOf callbacks completion (.handleReadSp target receive))
      ((world.take (before ++ after)).handleReadSp callbacks target receive completion) := by
  have begins : Undisturbed session (world.take (before ++ after))
      ((world.take (before ++ after)).countRecv receive) := undisturbed_count _
  have flag : (world.take (before ++ after)).stopSocketFlag =
      ((world.take (before ++ after)).countRecv receive).stopSocketFlag := rfl
  have fields : (world.take (before ++ after)).poolSession target =
      ((world.take (before ++ after)).countRecv receive).poolSession target := rfl
  simp only [callsOf, flag, fields]
  rcases @handleReadSp_cases U callbacks .all world.toLifecycle (world.take (before ++ after))
    before after completion target receive sound split rfl with
    ⟨stopped, unchanged⟩ | ⟨starts, ⟨closed, used⟩ | ⟨outcome, next, decides, finishes⟩⟩
  · rw [unchanged, if_pos (.inl stopped)]
    exact splits_of_no_calls sound split begins
  · rw [used, if_pos (.inr closed)]
    exact splits_of_no_calls sound split (begins.trans undisturbed_use)
  · rw [finishes, if_neg (by simp [decides.running, decides.notClosed])]
    have rereads := @reread_moves U .all _ target _ outcome.state decides.awaits
    have reads := @splits_finishReadSp U callbacks session world _ target outcome
      ((sound.moves starts).moves rereads.1)
      ((undisturbed_take split).trans (begins.trans undisturbed_use))
    rcases decides.decided with rfl
    exact reads

theorem splits_handle {handler : Handler} (sound : world.toLifecycle.Sound)
    (split : world.pending = before ++ handler :: after) :
    Splits callbacks session world
      ((world.take (before ++ after)).callsOf callbacks completion handler)
      (handle callbacks completion (world.take (before ++ after)) handler) := by
  cases handler with
  | handleAccept acceptor target => exact splits_handleAccept sound split
  | handleConnect connector target => exact splits_handleConnect sound split
  | handleReadSp target receive => exact splits_handleReadSp sound split
  | handleWrite target length => exact splits_handleWrite sound split
  | handleExit target wait => exact splits_of_no_calls sound split undisturbed_handleExit
  | handleDestory target wait =>
      have destroyed := @undisturbed_destroySession U session target (world.take (before ++ after))
      apply splits_of_no_calls sound split
      apply destroyed.trans
      exact undisturbed_count fun s => { s with totalClosed := s.totalClosed - 1 }

end Handlers

/-! ## The steps -/

section Steps

variable {session : Nat} {world next : World U} {asked : List (Nat × Int)}

theorem undisturbed_removeAll : Undisturbed session world world.removeAllSession := by
  have folded (entries : List (Sigma fun _ : Int => Nat)) (current : World U) :
      Undisturbed session current
        (entries.foldl (fun world entry => world.destroySession entry.2) current) := by
    induction entries generalizing current with
    | nil => exact .refl session current
    | cons entry rest ih => exact undisturbed_destroySession.trans (ih _)
  exact (folded _ world).trans (.of_same rfl rfl rfl)

theorem undisturbed_release : Undisturbed session world world.release := by
  refine .of_not_open (Int.le_refl _) ?_
  rintro ⟨alive, -⟩
  exact Bool.noConfusion alive

theorem waitsAsked_step {label : Label} (sound : world.toLifecycle.Sound)
    (steps : world.step callbacks label = some next)
    (once : StepSetsOnce callbacks (world, asked) label) (waits : world.WaitsAsked asked session) :
    next.WaitsAsked
      (asked ++ asksAll callbacks (world.calls callbacks label).1 (world.calls callbacks label).2)
      session := by
  have quiet {next : World U} (undisturbed : Undisturbed session world next) :
      next.WaitsAsked (asked ++ asksAll callbacks world []) session := by
    rw [asksAll, List.append_nil]
    exact waits.undisturbed undisturbed
  cases label with
  | complete index completion =>
      rcases complete_cases steps with ⟨handler, before, after, at_index, split, others, rfl⟩
      have splits := @splits_handle U callbacks session world before after completion handler sound
        split
      simp only [StepSetsOnce, calls, at_index, others] at once ⊢
      have called := (waitsAsked_performs splits.sound once (waits.undisturbed splits.before)).1
      exact called.undisturbed splits.after
  | call call =>
      simp only [step, Option.some.injEq] at steps
      subst steps
      exact (waitsAsked_performs sound once waits).1
  | tick seconds =>
      simp only [step, Option.some.injEq] at steps
      subst steps
      apply quiet
      refine .of_fields ?_ rfl rfl fun _ mem => mem
      exact Int.le_add_of_nonneg_right (Int.natCast_nonneg seconds)
  | stop =>
      simp only [step, Option.some.injEq] at steps
      subst steps
      exact quiet (.of_same rfl rfl rfl)
  | removeAll =>
      simp only [step, Option.some.injEq] at steps
      subst steps
      exact quiet undisturbed_removeAll
  | release =>
      simp only [step, Option.ite_none_right_eq_some, Option.some.injEq] at steps
      rcases steps with ⟨_, rfl⟩
      exact quiet undisturbed_release

theorem waitsAsked_of_reachable {Upper : U → Prop} {both : World U × List (Nat × Int)}
    (reached : (askingService callbacks Upper).ReachableBy (StepSetsOnce callbacks) both)
    (session : Nat) : both.1.WaitsAsked both.2 session := by
  let waits (world : World U) (asked : List (Nat × Int)) : Prop := world.WaitsAsked asked session
  have starts : ∀ world, (service callbacks Upper).Initial world → waits world [] := by
    rintro world ⟨upper, _, rfl⟩
    rintro ⟨alive, -⟩
    exact Bool.noConfusion alive
  refine reached.history_invariant (fun _ _ _ => trivial) (fun _ => sound_of_reachable) starts ?_
  intro world asked label next sound waits once steps
  exact waitsAsked_step sound steps once waits

/-- As long as no timer is set while it is set already, unless a delay has elapsed, `AsyncClose`
closes no session early. -/
theorem closesOnTime_of_setsOnce {Upper : U → Prop} {both : World U × List (Nat × Int)}
    (reached : (askingService callbacks Upper).ReachableBy (StepSetsOnce callbacks) both)
    (session : Nat) : both.1.ClosesOnTime callbacks both.2 session := by
  intro index completion wait next at_index steps opened
  rcases waitsAsked_of_reachable reached session opened wait (List.mem_of_getElem? at_index) with
    elapsed | ⟨running, due_mem⟩
  · exact elapsed
  · refine ⟨wait.due, due_mem, ?_⟩
    simp only [step, at_index, Option.ite_none_right_eq_some] at steps
    rcases steps.1 with cancelled | due
    · exact absurd cancelled (Bool.eq_false_iff.mp running)
    · exact due

/-- A client is accepted, and closed when ten seconds have passed. -/
theorem closesOnTime_after_delay :
    ∃ both : World Unit × List (Nat × Int), both.1.ClosesOnTime .silent both.2 2 ∧
      both.1.IsOpen 2 ∧ both.2 = [(2, 10)] ∧
        (both.1.step .silent (.complete 2 (.success []))).isSome = true := by
  have starts : (askingService .silent fun _ => True).Initial (initial (), []) :=
    ⟨⟨(), trivial, rfl⟩, rfl⟩
  have meets : (askingService .silent fun _ => True).RunMeets (StepSetsOnce .silent)
      (initial (), [])
      [.call (.startListen 0 true), .complete 0 (.success []), .call (.asyncClose 2 10),
        .tick 10] := by
    refine ⟨⟨trivial, trivial⟩, ?_⟩
    intro listening listens
    rcases Option.some.inj listens with rfl
    refine ⟨trivial, ?_⟩
    intro accepted accepts
    rcases Option.some.inj accepts with rfl
    refine ⟨⟨?_, trivial⟩, fun _ _ => ⟨trivial, fun _ _ => trivial⟩⟩
    intro session _ _
    left
    intro wait pending
    rcases List.mem_cons.mp pending with accepting | rest
    · exact Handler.noConfusion accepting
    · exact Handler.noConfusion (List.mem_singleton.mp rest)
  have runs : ∃ both, (askingService .silent fun _ => True).run (initial (), [])
      [.call (.startListen 0 true), .complete 0 (.success []), .call (.asyncClose 2 10),
        .tick 10] = some both ∧ both.1.IsOpen 2 ∧ both.2 = [(2, 10)] ∧
          (both.1.step .silent (.complete 2 (.success []))).isSome = true :=
    ⟨_, rfl, ⟨rfl, rfl⟩, by decide, by decide⟩
  rcases runs with ⟨both, runs, opened, asked, completes⟩
  have reached := Transition.System.ReachableBy.run (.initial starts) meets runs
  exact ⟨both, closesOnTime_of_setsOnce reached 2, opened, asked, completes⟩

/-- Asked twice at once to close a session after ten seconds, the service closes it at once. -/
theorem closes_early_when_asked_twice :
    ∃ both, (askingService .silent fun _ => True).Reachable both ∧
      ¬both.1.ClosesOnTime .silent both.2 2 := by
  have starts : (askingService .silent fun _ => True).Initial (initial (), []) :=
    ⟨⟨(), trivial, rfl⟩, rfl⟩
  have runs : ∃ both, (askingService .silent fun _ => True).run (initial (), [])
      [.call (.startListen 0 true), .complete 0 (.success []), .call (.asyncClose 2 10),
        .call (.asyncClose 2 10)] = some both ∧ both.1.IsOpen 2 ∧ both.1.clock = 0 ∧
          both.2 = [(2, 10), (2, 10)] ∧ both.1.pending[2]? = some (.handleExit 2 ⟨10, true⟩) ∧
            (both.1.step .silent (.complete 2 (.success []))).isSome = true :=
    ⟨_, rfl, ⟨rfl, rfl⟩, rfl, by decide, rfl, by decide⟩
  rcases runs with ⟨both, runs, opened, now, asked, cancelled, completes⟩
  refine ⟨both, Transition.System.reachable_of_run starts runs, ?_⟩
  intro onTime
  rcases Option.isSome_iff_exists.mp completes with ⟨next, steps⟩
  rcases onTime 2 (.success []) _ next cancelled steps opened with ⟨due, due_mem, due_le⟩
  simp only [asked, List.mem_cons, Prod.mk.injEq, true_and, List.not_mem_nil, or_false,
    or_self] at due_mem
  omega

end Steps

end World

end SunPush
