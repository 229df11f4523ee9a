import SunPush.Session.Service

/-!
# What is left to happen after `StopSocketService`

`StopSocketService` sets the stop flag, empties the map and ends the service.
Once the flag is set no message is delivered, nothing is accepted for sending,
no connection attempt begins and none is reported to have failed; what was in
flight may complete once.  New clients are still accepted, for `handle_accept`
does not look at the flag.  Once the service has ended nothing happens any more.
-/

namespace SunPush

/-! ## What is in flight -/

namespace Handler

/-- The session and the length of the write that the handler completes. -/
def writeOf : Handler → Option (Nat × Int)
  | handleWrite session length => some (session, length)
  | _ => none

/-- The connector and the session of the connection attempt that the handler completes. -/
def attemptOf : Handler → Option (Nat × Nat)
  | handleConnect connector session => some (connector, session)
  | _ => none

@[simp]
theorem writeOf_cancel (target : Nat) (handler : Handler) :
    (handler.cancel target).writeOf = handler.writeOf := by
  cases handler <;> rfl

@[simp]
theorem attemptOf_cancel (target : Nat) (handler : Handler) :
    (handler.cancel target).attemptOf = handler.attemptOf := by
  cases handler <;> rfl

end Handler

namespace Event

/-- The session and the length of the write that the event reports. -/
def reportedWrite : Event → Option (Nat × Int)
  | onSend session length => some (session, length)
  | _ => none

/-- The session of the connection attempt of which the event reports the end. -/
def reportedAttempt : Event → Option Nat
  | onConnect session _ => some session
  | _ => none

/-- The event reports no message and no failed connection attempt. -/
def Quiet : Event → Prop
  | onReadComplete _ _ => False
  | onConnect _ errorCode => errorCode = 0
  | _ => True

end Event

/-! ## Calls that look at the flag -/

/-- The call refuses to send once the flag is set, as `Send`, `SendMulti` and `SendEx` do. -/
def ApiCall.Refuses : ApiCall → Prop
  | .send _ encode => ∀ found, (encode true found).sent = none
  | _ => True

theorem refuses_send (connectID : Int) (data : Nat → UInt8) (length : UInt16)
    (beyond : Nat → UInt8) :
    (ApiCall.send connectID fun stopSocketFlag found =>
      send stopSocketFlag found data length beyond).Refuses := by
  intro found
  simp only [send, if_true]
  split <;> rfl

theorem refuses_sendMulti (connectID : Int) (messageCount : Int16) (ppMsg : Nat → Nat → UInt8)
    (pwSize : Nat → Int16) :
    (ApiCall.send connectID fun stopSocketFlag found =>
      sendMulti stopSocketFlag found messageCount ppMsg pwSize).Refuses :=
  fun _ => rfl

theorem refuses_sendEx (connectID : Int) (messageCount : Int16) (ppMsg : Nat → Nat → UInt8)
    (pwSize : Nat → Int16) (beyond : Nat → UInt8) :
    (ApiCall.send connectID fun stopSocketFlag found =>
      sendEx stopSocketFlag found messageCount ppMsg pwSize beyond).Refuses :=
  fun _ => rfl

/-- Every call that the callbacks make refuses to send once the flag is set. -/
structure Callbacks.Refuse {U : Type} (callbacks : Callbacks U) : Prop where
  onAccept : ∀ acceptor connIndex memory upper,
    ∀ call ∈ (callbacks.onAccept acceptor connIndex memory upper).2, call.Refuses
  onConnect : ∀ connector connIndex errorCode upper,
    ∀ call ∈ (callbacks.onConnect connector connIndex errorCode upper).2, call.Refuses
  onReadComplete : ∀ owner connIndex msg length upper,
    ∀ call ∈ (callbacks.onReadComplete owner connIndex msg length upper).2, call.Refuses
  onSend : ∀ owner connIndex length upper,
    ∀ call ∈ (callbacks.onSend owner connIndex length upper).2, call.Refuses

/-- A thread's call refuses to send once the flag is set. -/
def Label.Refuses : Label → Prop
  | .call request => request.Refuses
  | _ => True

/-! ## Muted steps -/

/-- What matters of a state once the flag is set. -/
structure Outlook where
  stopSocketFlag : Bool
  log : List Event
  /-- The sessions and lengths of the writes in flight. -/
  writes : List (Nat × Int)
  /-- The connectors and sessions of the connection attempts in flight. -/
  attempts : List (Nat × Nat)
  totalMsgRecvCount : Int
  totalMsgSendCount : Int

/-- From a stopped state to a later one no connection attempt begins, nothing is received or
accepted, and beyond the writes `sends` and the attempts for the sessions `connects` only those are
reported that are no longer in flight. -/
structure Muted (sends : List (Nat × Int)) (connects : List Nat) (before after : Outlook) :
    Prop where
  stopped : after.stopSocketFlag = true
  reported : ∃ more, after.log = before.log ++ more ∧ (∀ event ∈ more, event.Quiet) ∧
    (∀ write, (more.filterMap Event.reportedWrite).count write + after.writes.count write ≤
      before.writes.count write + sends.count write) ∧
    ∀ session, (more.filterMap Event.reportedAttempt).count session +
      (after.attempts.map Prod.snd).count session ≤
        (before.attempts.map Prod.snd).count session + connects.count session
  begun : ∀ attempt, after.attempts.count attempt ≤ before.attempts.count attempt
  received : after.totalMsgRecvCount = before.totalMsgRecvCount
  accepted : after.totalMsgSendCount = before.totalMsgSendCount

theorem filterMap_cons_toList {α β : Type} (f : α → Option β) (first : α) (rest : List α) :
    (first :: rest).filterMap f = (f first).toList ++ rest.filterMap f := by
  cases value : f first with
  | none => rw [List.filterMap_cons_none value, Option.toList_none, List.nil_append]
  | some image => rw [List.filterMap_cons_some value, Option.toList_some, List.singleton_append]

namespace Muted

variable {before middle after outlook : Outlook} {sends : List (Nat × Int)} {connects : List Nat}

theorem trans {moreSends : List (Nat × Int)} {moreConnects : List Nat}
    (first : Muted sends connects before middle)
    (second : Muted moreSends moreConnects middle after) :
    Muted (sends ++ moreSends) (connects ++ moreConnects) before after where
  stopped := second.stopped
  reported := by
    rcases first.reported with ⟨one, one_eq, one_quiet, one_writes, one_attempts⟩
    rcases second.reported with ⟨two, two_eq, two_quiet, two_writes, two_attempts⟩
    refine ⟨one ++ two, ?_, ?_, ?_, ?_⟩
    · rw [two_eq, one_eq, List.append_assoc]
    · intro event event_mem
      rcases List.mem_append.mp event_mem with inOne | inTwo
      · exact one_quiet event inOne
      · exact two_quiet event inTwo
    · intro write
      have early := one_writes write
      have late := two_writes write
      rw [List.filterMap_append, List.count_append, List.count_append]
      omega
    · intro session
      have early := one_attempts session
      have late := two_attempts session
      rw [List.filterMap_append, List.count_append, List.count_append]
      omega
  begun attempt := Nat.le_trans (second.begun attempt) (first.begun attempt)
  received := second.received.trans first.received
  accepted := second.accepted.trans first.accepted

/-- Where nothing is reported beyond what is no longer in flight, no allowance is needed. -/
theorem weaken (muted : Muted [] [] before after) (sends : List (Nat × Int))
    (connects : List Nat) : Muted sends connects before after where
  stopped := muted.stopped
  reported := by
    rcases muted.reported with ⟨more, more_eq, quiet, writes, attempts⟩
    refine ⟨more, more_eq, quiet, ?_, ?_⟩
    · exact fun write => Nat.le_trans (writes write) (Nat.le_add_right _ _)
    · exact fun session => Nat.le_trans (attempts session) (Nat.le_add_right _ _)
  begun := muted.begun
  received := muted.received
  accepted := muted.accepted

theorem refl (stopped : outlook.stopSocketFlag = true) : Muted [] [] outlook outlook where
  stopped := stopped
  reported := ⟨[], by simp, by simp, by simp, by simp⟩
  begun _ := Nat.le_refl _
  received := rfl
  accepted := rfl

/-- One event is reported, and it uses up its allowance. -/
theorem note (stopped : outlook.stopSocketFlag = true) {event : Event} (quiet : event.Quiet) :
    Muted event.reportedWrite.toList event.reportedAttempt.toList outlook
      { outlook with log := outlook.log ++ [event] } where
  stopped := stopped
  reported := by
    refine ⟨[event], rfl, ?_, ?_, ?_⟩
    · intro other other_mem
      rw [List.mem_singleton.mp other_mem]
      exact quiet
    · intro write
      rw [filterMap_cons_toList, List.filterMap_nil, List.append_nil, Nat.add_comm]
    · intro session
      rw [filterMap_cons_toList, List.filterMap_nil, List.append_nil, Nat.add_comm]
  begun _ := Nat.le_refl _
  received := rfl
  accepted := rfl

/-- What is reported and what is still in flight was in flight before. -/
theorem subperm (muted : Muted [] [] before after) :
    ∃ more, after.log = before.log ++ more ∧ (∀ event ∈ more, event.Quiet) ∧
      (more.filterMap Event.reportedWrite ++ after.writes).Subperm before.writes ∧
      (more.filterMap Event.reportedAttempt ++ after.attempts.map Prod.snd).Subperm
        (before.attempts.map Prod.snd) := by
  rcases muted.reported with ⟨more, more_eq, quiet, writes, attempts⟩
  refine ⟨more, more_eq, quiet, ?_, ?_⟩
  · rw [List.subperm_ext_iff]
    intro write _
    rw [List.count_append]
    exact writes write
  · rw [List.subperm_ext_iff]
    intro session _
    rw [List.count_append]
    exact attempts session

end Muted

namespace World

variable {U : Type} {callbacks : Callbacks U} {world : World U}

def outlook (world : World U) : Outlook where
  stopSocketFlag := world.stopSocketFlag
  log := world.log
  writes := world.pending.filterMap Handler.writeOf
  attempts := world.pending.filterMap Handler.attemptOf
  totalMsgRecvCount := world.statistics.totalMsgRecvCount
  totalMsgSendCount := world.statistics.totalMsgSendCount

theorem outlook_post (world : World U) {handler : Handler} (write : handler.writeOf = none)
    (attempt : handler.attemptOf = none) : (world.post handler).outlook = world.outlook := by
  simp [outlook, post, write, attempt]

theorem outlook_expiresFromNow (world : World U) (session : Nat) :
    (world.expiresFromNow session).outlook = world.outlook := by
  have writes : Handler.writeOf ∘ Handler.cancel session = Handler.writeOf :=
    funext fun handler => handler.writeOf_cancel session
  have attempts : Handler.attemptOf ∘ Handler.cancel session = Handler.attemptOf :=
    funext fun handler => handler.attemptOf_cancel session
  simp only [outlook, expiresFromNow, List.filterMap_map, writes, attempts]

theorem outlook_destroySession (world : World U) (session : Nat) :
    (world.destroySession session).outlook = world.outlook :=
  outlook_expiresFromNow ((world.use session).modify session .destruct) session

theorem outlook_leaveMap (session : Nat) :
    (world.leaveMap session).outlook = world.outlook := by
  simp only [leaveMap]
  split
  · rfl
  · rw [outlook_post _ rfl rfl, outlook_expiresFromNow]
    rfl

/-- A client is accepted whatever the flag says. -/
theorem outlook_acceptNext (acceptor : Nat) (memory : Bool) (world : World U) :
    (world.acceptNext acceptor memory).outlook = world.outlook := by
  cases memory with
  | false => rfl
  | true => exact outlook_post _ rfl rfl

theorem outlook_start (session : Nat) (world : World U) :
    (world.start session).outlook = world.outlook :=
  outlook_post _ rfl rfl

theorem outlook_removeAllSession (world : World U) :
    world.removeAllSession.outlook = world.outlook := by
  suffices destroyed : ∀ (entries : List (Sigma fun _ : Int => Nat)) (current : World U),
      (entries.foldl (fun world entry => world.destroySession entry.2) current).outlook =
        current.outlook from destroyed world.mapSession.entries world
  intro entries
  induction entries with
  | nil => exact fun _ => rfl
  | cons entry entries ih =>
      exact fun current => (ih _).trans (outlook_destroySession current entry.2)

section Functions

variable (stopped : world.stopSocketFlag = true)

include stopped

theorem muted_tellClosed (session : Nat) :
    Muted [] [] world.outlook (world.tellClosed callbacks session).outlook := by
  have told : Muted [] [] world.outlook (world.record (.onClose session)).outlook :=
    @Muted.note world.outlook stopped (.onClose session) trivial
  simp only [tellClosed]
  split
  · exact told
  · exact told
  · exact .refl stopped

theorem muted_handleExit (session : Nat) :
    Muted [] [] world.outlook (world.handleExit callbacks session).outlook := by
  simp only [handleExit]
  split
  · exact .refl stopped
  · rw [outlook_leaveMap]
    exact @muted_tellClosed U callbacks
      (((world.use session).modify session fun s => { s with socketStatus := .closed }).count
        fun s => { s with totalClosed := s.totalClosed + 1 })
      stopped session

theorem muted_close (session : Nat) (waitSeconds : Int) :
    Muted [] [] world.outlook (world.close callbacks session waitSeconds).outlook := by
  simp only [close]
  split
  · rw [outlook_post _ rfl rfl, outlook_expiresFromNow]
    exact .refl stopped
  · exact muted_handleExit stopped session

theorem muted_closeSocket (connectID : Int) :
    Muted [] [] world.outlook (world.closeSocket callbacks connectID).outlook := by
  simp only [closeSocket]
  split
  · exact .refl stopped
  · exact muted_close stopped _ 0

theorem muted_perform {call : ApiCall} (refuses : call.Refuses) :
    Muted [] [] world.outlook (world.perform callbacks call).outlook := by
  cases call with
  | send connectID encode =>
      have refused := refuses (world.getSession connectID).isSome
      rw [← stopped] at refused
      simp only [perform, refused]
      split
      · contradiction
      · exact .refl stopped
  | closeSocket connectID => exact muted_closeSocket stopped connectID
  | asyncClose connectID waitSeconds =>
      simp only [perform]
      split
      · exact .refl stopped
      · exact muted_close stopped _ waitSeconds
  | startListen acceptor memory =>
      simp only [perform, startListen, stopped, if_true]
      exact .refl stopped
  | stopListen acceptor failed =>
      simp only [perform]
      split
      · exact .refl stopped
      · exact .refl stopped
  | asyncConnect connector memory =>
      simp only [perform, asyncConnect, stopped, if_true]
      exact .refl stopped
  | disConnect connector =>
      simp only [perform]
      split
      · exact .refl stopped
      · exact muted_closeSocket stopped _

theorem muted_performAll {result : U × List ApiCall} (refuse : ∀ call ∈ result.2, call.Refuses) :
    Muted [] [] world.outlook (world.performAll callbacks result).outlook := by
  rcases result with ⟨upper, calls⟩
  have changed : Muted [] [] world.outlook { world with upper := upper }.outlook := .refl stopped
  suffices performed : ∀ current : World U, Muted [] [] world.outlook current.outlook →
      Muted [] [] world.outlook (calls.foldl (perform callbacks) current).outlook from
    performed _ changed
  induction calls with
  | nil => exact fun _ muted => muted
  | cons call calls ih =>
      intro current muted
      apply ih fun other other_mem => refuse other (List.mem_cons_of_mem call other_mem)
      exact muted.trans (muted_perform muted.stopped (refuse call List.mem_cons_self))

/-! ## Handlers -/

theorem muted_handleReadSp (session : Nat) (receive : Receive) (completion : Completion) :
    Muted [] [] world.outlook
      (world.handleReadSp callbacks session receive completion).outlook := by
  have flag : (world.count fun s => { s with
      totalDataRecv := s.totalDataRecv + receive.recvLength }).stopSocketFlag = true := stopped
  simp only [handleReadSp, flag, if_true]
  exact .refl stopped

variable (refuse : callbacks.Refuse)

include refuse

theorem muted_onAccept (acceptor session : Nat) (memory : Bool) :
    Muted [] [] world.outlook (world.onAccept callbacks acceptor session memory).outlook := by
  have noted : Muted [] [] world.outlook
      ((world.use session).record (.onAccept session)).outlook :=
    @Muted.note world.outlook stopped (.onAccept session) trivial
  exact noted.trans (muted_performAll noted.stopped (refuse.onAccept _ _ _ _))

theorem muted_onConnect (connector session : Nat) :
    Muted [] [session] world.outlook (world.onConnect callbacks connector session 0).outlook := by
  have noted : Muted [] [session] world.outlook
      ((world.use session).record (.onConnect session 0)).outlook :=
    @Muted.note world.outlook stopped (.onConnect session 0) rfl
  exact noted.trans (muted_performAll noted.stopped (refuse.onConnect _ _ _ _))

theorem muted_onSend (session : Nat) (length : Int) :
    Muted [(session, length)] [] world.outlook
      (world.onSend callbacks session length).outlook := by
  simp only [onSend]
  split
  · exact (Muted.refl stopped).weaken _ _
  · have noted : Muted [(session, length)] [] world.outlook
        ((world.use session).record (.onSend session length)).outlook :=
      @Muted.note world.outlook stopped (.onSend session length) trivial
    exact noted.trans (muted_performAll noted.stopped (refuse.onSend _ _ _ _))

theorem muted_handleAccept (acceptor session : Nat) (completion : Completion) :
    Muted [] [] world.outlook
      (world.handleAccept callbacks acceptor session completion).outlook := by
  simp only [handleAccept]
  split
  · rw [outlook_destroySession]
    exact .refl stopped
  · rw [outlook_acceptNext]
    let counted := world.count fun s => { s with totalConneced := s.totalConneced + 1 }
    have counted_stopped : counted.stopSocketFlag = true := stopped
    split
    · exact muted_handleExit counted_stopped session
    · rw [acceptClient, outlook_start]
      let opened := counted.openSession session fun s =>
        { s with socketStatus := .connected, acceptor := some acceptor }
      exact @muted_onAccept U callbacks opened stopped refuse acceptor session _

theorem muted_handleConnect (connector session : Nat) (completion : Completion) :
    Muted [] [session] world.outlook
      (world.handleConnect callbacks connector session completion).outlook := by
  by_cases failed : completion.error ≠ 0
  · have unchanged : world.handleConnect callbacks connector session completion = world := by
      rw [handleConnect, if_pos failed, if_pos stopped]
    rw [unchanged]
    exact (Muted.refl stopped).weaken _ _
  · have success : completion.error = 0 := not_not.mp failed
    simp only [handleConnect, success, ne_eq, not_true_eq_false, if_false]
    let opened := (world.openSession session fun s => { s with socketStatus := .connected }).start
      session
    have same : opened.outlook = world.outlook := outlook_start session _
    rw [← same]
    exact @muted_onConnect U callbacks opened stopped refuse connector session

theorem muted_handleWrite (session : Nat) (length : Int) (completion : Completion) :
    Muted [(session, length)] [] world.outlook
      (world.handleWrite callbacks session length completion).outlook := by
  simp only [handleWrite]
  split
  · exact (Muted.refl stopped).weaken _ _
  · have sent : Muted [(session, length)] [] world.outlook
        ((world.use session).onSend callbacks session length).outlook :=
      @muted_onSend U callbacks (world.use session) stopped refuse session length
    have counted : Muted [] [] ((world.use session).onSend callbacks session length).outlook
        (((world.use session).onSend callbacks session length).count fun s =>
          if completion.error = 0 then
            { s with
              totalDataSendWait := s.totalDataSendWait - length
              totalDataSend := s.totalDataSend + length }
          else { s with totalDataSendDiscard := s.totalDataSendDiscard + length }).outlook := by
      by_cases success : completion.error = 0
      · simp only [success, if_true]
        exact .refl sent.stopped
      · simp only [success, if_false]
        exact .refl sent.stopped
    exact sent.trans counted

theorem muted_handle (completion : Completion) (handler : Handler) :
    Muted handler.writeOf.toList (handler.attemptOf.toList.map Prod.snd) world.outlook
      (handle callbacks completion world handler).outlook := by
  cases handler with
  | handleAccept acceptor session => exact muted_handleAccept stopped refuse _ _ _
  | handleConnect connector session => exact muted_handleConnect stopped refuse _ _ _
  | handleReadSp session receive => exact muted_handleReadSp stopped session receive _
  | handleWrite session length => exact muted_handleWrite stopped refuse _ _ _
  | handleExit session wait => exact muted_handleExit stopped session
  | handleDestory session wait =>
      have destroyed : Muted [] [] world.outlook (world.destroySession session).outlook := by
        rw [outlook_destroySession]
        exact .refl stopped
      exact destroyed

end Functions

/-! ## Runs -/

section Runs

variable {next final : World U} {Upper : U → Prop}

theorem muted_step (refuse : callbacks.Refuse) (stopped : world.stopSocketFlag = true)
    {label : Label} (refuses : label.Refuses) (steps : step callbacks world label = some next) :
    Muted [] [] world.outlook next.outlook := by
  cases label with
  | complete index completion =>
      simp only [step] at steps
      split at steps
      · contradiction
      · next handler taken =>
          split at steps
          · rcases Option.some.inj steps with rfl
            rcases List.getElem?_eq_some_iff.mp taken with ⟨index_lt, handler_eq⟩
            have rest := (List.getElem_cons_eraseIdx_perm index_lt).symm
            rw [handler_eq] at rest
            have writes := rest.filterMap Handler.writeOf
            have attempts := rest.filterMap Handler.attemptOf
            rw [filterMap_cons_toList] at writes attempts
            let taking := { world with pending := world.pending.eraseIdx index }
            have handled := @muted_handle U callbacks taking stopped refuse completion handler
            refine ⟨handled.stopped, ?_, ?_, handled.received, handled.accepted⟩
            · rcases handled.reported with ⟨more, more_eq, quiet, sends, connects⟩
              refine ⟨more, more_eq, quiet, ?_, ?_⟩
              · intro write
                have flying := writes.count_eq write
                rw [List.count_append] at flying
                refine Nat.le_trans (sends write) ?_
                change ((world.pending.eraseIdx index).filterMap Handler.writeOf).count write + _ ≤
                  (world.pending.filterMap Handler.writeOf).count write + 0
                omega
              · intro session
                have flying := (attempts.map Prod.snd).count_eq session
                rw [List.map_append, List.count_append] at flying
                refine Nat.le_trans (connects session) ?_
                change (((world.pending.eraseIdx index).filterMap Handler.attemptOf).map
                    Prod.snd).count session + _ ≤
                  ((world.pending.filterMap Handler.attemptOf).map Prod.snd).count session + 0
                omega
            · intro attempt
              have flying := attempts.count_eq attempt
              rw [List.count_append] at flying
              refine Nat.le_trans (handled.begun attempt) ?_
              change ((world.pending.eraseIdx index).filterMap Handler.attemptOf).count attempt ≤
                (world.pending.filterMap Handler.attemptOf).count attempt
              omega
          · contradiction
  | call call =>
      rcases Option.some.inj steps with rfl
      exact muted_perform stopped refuses
  | tick seconds =>
      rcases Option.some.inj steps with rfl
      exact .refl stopped
  | stop =>
      rcases Option.some.inj steps with rfl
      have unchanged : Muted [] [] world.outlook world.outlook := .refl stopped
      exact ⟨rfl, unchanged.reported, unchanged.begun, rfl, rfl⟩
  | removeAll =>
      rcases Option.some.inj steps with rfl
      rw [outlook_removeAllSession]
      exact .refl stopped
  | release =>
      simp only [step, stopped, if_true, Option.some.injEq] at steps
      subst steps
      exact ⟨stopped, ⟨[], by simp [outlook, release]⟩, fun _ => Nat.zero_le _, rfl, rfl⟩

theorem muted_run (refuse : callbacks.Refuse) (stopped : world.stopSocketFlag = true)
    {labels : List Label} (refuses : ∀ label ∈ labels, label.Refuses)
    (runs : (service callbacks Upper).run world labels = some final) :
    Muted [] [] world.outlook final.outlook := by
  induction labels generalizing world with
  | nil =>
      rcases Option.some.inj runs with rfl
      exact .refl stopped
  | cons label labels ih =>
      rw [Transition.System.run_cons, Option.bind_eq_some_iff] at runs
      rcases runs with ⟨next, steps, rest⟩
      have first := muted_step refuse stopped (refuses label List.mem_cons_self) steps
      have later := ih first.stopped
        (fun other other_mem => refuses other (List.mem_cons_of_mem label other_mem)) rest
      exact first.trans later

/-- Each step of a run is muted by itself. -/
theorem muted_step_of_run (refuse : callbacks.Refuse) (stopped : world.stopSocketFlag = true)
    {labels early late : List Label} {label : Label} (split : labels = early ++ label :: late)
    (refuses : ∀ label ∈ labels, label.Refuses)
    (runs : (service callbacks Upper).run world labels = some final) :
    ∃ middle next, (service callbacks Upper).run world early = some middle ∧
      (service callbacks Upper).step middle label = some next ∧
      Muted [] [] middle.outlook next.outlook := by
  subst split
  rw [Transition.System.run_append, Option.bind_eq_some_iff] at runs
  rcases runs with ⟨middle, before, runs⟩
  rw [Transition.System.run_cons, Option.bind_eq_some_iff] at runs
  rcases runs with ⟨next, steps, -⟩
  have first := muted_run refuse stopped
    (fun other other_mem => refuses other (List.mem_append_left _ other_mem)) before
  have inside : label ∈ early ++ label :: late := List.mem_append_right _ List.mem_cons_self
  exact ⟨middle, next, before, steps, muted_step refuse first.stopped (refuses label inside) steps⟩

/-- The service has ended. -/
structure Over (world : World U) : Prop where
  stopped : world.stopSocketFlag = true
  pending : world.pending = []
  mapSession : world.mapSession = ∅
  dead : ∀ session, (world.poolSession session).alive = false

theorem over_release (stopped : world.stopSocketFlag = true) : world.release.Over :=
  ⟨stopped, rfl, rfl, fun _ => rfl⟩

/-- A step of a service that has ended changes nothing but the clock and a counter. -/
theorem Over.step (ended : world.Over) {label : Label}
    (steps : World.step callbacks world label = some next) :
    next.Over ∧ next.log = world.log ∧ next.upper = world.upper := by
  have lookup (connectID : Int) : world.getSession connectID = none := by
    rw [getSession, ended.mapSession]
    rfl
  cases label with
  | complete index completion => simp [World.step, ended.pending] at steps
  | call call =>
      rcases Option.some.inj steps with rfl
      cases call with
      | send connectID encode =>
          simp only [perform, lookup]
          exact ⟨ended, trivial, trivial⟩
      | closeSocket connectID =>
          simp only [perform, closeSocket, lookup]
          exact ⟨ended, trivial, trivial⟩
      | asyncClose connectID waitSeconds =>
          simp only [perform, lookup]
          exact ⟨ended, trivial, trivial⟩
      | startListen acceptor memory =>
          simp only [perform, startListen, ended.stopped, if_true]
          exact ⟨ended, trivial, trivial⟩
      | stopListen acceptor failed =>
          cases failed with
          | true => exact ⟨ended, rfl, rfl⟩
          | false => exact ⟨⟨ended.stopped, ended.pending, ended.mapSession, ended.dead⟩, rfl, rfl⟩
      | asyncConnect connector memory =>
          simp only [perform, asyncConnect, ended.stopped, if_true]
          exact ⟨ended, trivial, trivial⟩
      | disConnect connector =>
          simp only [perform]
          split
          · exact ⟨ended, rfl, rfl⟩
          · simp only [closeSocket, lookup]
            exact ⟨ended, trivial, trivial⟩
  | tick seconds =>
      rcases Option.some.inj steps with rfl
      exact ⟨⟨ended.stopped, ended.pending, ended.mapSession, ended.dead⟩, rfl, rfl⟩
  | stop =>
      rcases Option.some.inj steps with rfl
      exact ⟨⟨rfl, ended.pending, ended.mapSession, ended.dead⟩, rfl, rfl⟩
  | removeAll =>
      rcases Option.some.inj steps with rfl
      have empty : world.mapSession.entries = [] := by
        rw [ended.mapSession]
        rfl
      simp only [removeAllSession, empty, List.foldl_nil]
      exact ⟨⟨ended.stopped, ended.pending, rfl, ended.dead⟩, trivial, trivial⟩
  | release =>
      simp only [World.step, ended.stopped, if_true, Option.some.injEq] at steps
      subst steps
      exact ⟨over_release ended.stopped, rfl, rfl⟩

theorem Over.run (ended : world.Over) {labels : List Label}
    (runs : (service callbacks Upper).run world labels = some final) :
    final.Over ∧ final.log = world.log ∧ final.upper = world.upper := by
  induction labels generalizing world with
  | nil =>
      rcases Option.some.inj runs with rfl
      exact ⟨ended, rfl, rfl⟩
  | cons label labels ih =>
      rw [Transition.System.run_cons, Option.bind_eq_some_iff] at runs
      rcases runs with ⟨next, steps, rest⟩
      have first := ended.step steps
      have later := ih first.1 rest
      exact ⟨later.1, later.2.1.trans first.2.1, later.2.2.trans first.2.2⟩

/-- Once `release` has happened in a run, nothing happens any more. -/
theorem over_of_run {early late : List Label} {labels : List Label}
    (split : labels = early ++ .release :: late)
    (runs : (service callbacks Upper).run world labels = some final) :
    ∃ middle, (service callbacks Upper).run world early = some middle ∧ final.Over ∧
      final.log = middle.log ∧ final.upper = middle.upper := by
  rw [split, Transition.System.run_append, Option.bind_eq_some_iff] at runs
  rcases runs with ⟨middle, before, runs⟩
  rw [Transition.System.run_cons, Option.bind_eq_some_iff] at runs
  rcases runs with ⟨next, steps, rest⟩
  change (if middle.stopSocketFlag then some middle.release else none) = some next at steps
  split at steps
  · next flag =>
      rcases Option.some.inj steps with rfl
      have ended := (over_release flag).run rest
      exact ⟨middle, before, ended.1, ended.2.1, ended.2.2⟩
  · contradiction

end Runs

end World

end SunPush
