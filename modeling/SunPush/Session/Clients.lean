import SunPush.Session.Refinement

/-!
# Open clients and the upper layer

The upper layer learns of a client through `OnAccept`.  Here is what the rest of
the service does to the open clients, which is nothing unless it closes or
destroys one, and to the upper layer's state, which changes only in callbacks.
-/

namespace SunPush

/-- The identifier of the client behind a session, if the session is open and has an acceptor. -/
def Session.client (fields : Session) : Option Int :=
  if fields.alive = true ∧ fields.socketStatus = .connected ∧ fields.acceptor.isSome = true then
    some fields.connIndex
  else none

theorem Session.client_of_status {fields : Session} (status : fields.socketStatus ≠ .connected) :
    fields.client = none :=
  if_neg fun opened => status opened.2.1

namespace Lifecycle

theorem client_eq_some_iff {life : Lifecycle} {session : Nat} {connectID : Int} :
    (life.poolSession session).client = some connectID ↔
      life.OpenClient session ∧ (life.poolSession session).connIndex = connectID := by
  simp only [Session.client, OpenClient, Option.ite_none_right_eq_some, Option.some.injEq]

theorem client_eq_none {life : Lifecycle} {session : Nat} (closed : ¬life.OpenClient session) :
    (life.poolSession session).client = none :=
  if_neg closed

theorem Sound.client_of_owner {life : Lifecycle} (sound : life.Sound) {session acceptor : Nat}
    (owned : (life.poolSession session).owner = some (.acceptor acceptor)) :
    (life.poolSession session).client = some (life.poolSession session).connIndex := by
  have accepted : (life.poolSession session).acceptor.isSome = true := by
    simp only [Session.owner] at owned
    split at owned <;> simp_all
  have opened := sound.owned session accepted
  exact client_eq_some_iff.mpr ⟨⟨opened.1, opened.2.1, accepted⟩, rfl⟩

/-- The open clients of two states are the same. -/
def SameClients (life next : Lifecycle) : Prop :=
  ∀ session, (next.poolSession session).client = (life.poolSession session).client

theorem SameClients.trans {life middle next : Lifecycle} (first : life.SameClients middle)
    (second : middle.SameClients next) : life.SameClients next :=
  fun session => (second session).trans (first session)

/-- No client is opened, and none is closed without permission. -/
def FewerClients (permission : Permission) (life next : Lifecycle) : Prop :=
  ∀ session, (next.poolSession session).client = (life.poolSession session).client ∨
    permission.closeClient ∧ (next.poolSession session).client = none

theorem SameClients.fewer {life next : Lifecycle} (same : life.SameClients next)
    (permission : Permission) : FewerClients permission life next :=
  fun session => .inl (same session)

theorem FewerClients.trans {permission : Permission} {life middle next : Lifecycle}
    (first : FewerClients permission life middle)
    (second : FewerClients permission middle next) : FewerClients permission life next := by
  intro session
  rcases second session with same | closed
  · rw [same]
    exact first session
  · exact .inr closed

/-- The permission of steps that open no client and close none. -/
def quietPermission : Permission where
  openClient := False
  closeClient := False
  useRefused := True
  destroyEarly := True
  removeEarly := True

/-- The permission of steps that open no client. -/
def closingPermission : Permission where
  openClient := False
  closeClient := True
  useRefused := True
  destroyEarly := True
  removeEarly := True

section SameClients

variable {life : Lifecycle} {session : Nat}

theorem sameClients_setSession {fields : Session}
    (same : fields.client = (life.poolSession session).client) :
    life.SameClients (life.setSession session fields) := by
  intro other
  by_cases equal : other = session
  · subst equal
    simp only [setSession, Function.update_self]
    exact same
  · simp only [setSession, Function.update_of_ne equal]

theorem sameClients_destroy (closed : (life.poolSession session).client = none) :
    life.SameClients (life.destroy session) := by
  have destroyed : life.SameClients
      (life.setSession session (life.poolSession session).destruct) := by
    apply sameClients_setSession
    rw [closed]
    rfl
  exact destroyed

theorem sameClients_allocate (sound : life.Sound) {fields : Session}
    (closed : fields.client = none) : life.SameClients (life.allocate fields) := by
  intro other
  by_cases equal : other = life.currentConnexindex + 1
  · subst equal
    simp only [allocate, Function.update_self, closed]
    symm
    apply client_eq_none
    intro openClient
    have := (sound.numbered _ openClient.1).1
    omega
  · simp only [allocate, Function.update_of_ne equal]

theorem client_exit (life : Lifecycle) (session : Nat) (due : Int) (other : Nat) :
    ((life.exit session due).poolSession other).client =
      if other = session then none else (life.poolSession other).client := by
  rw [exit_poolSession]
  by_cases equal : other = session
  · subst equal
    rw [Function.update_self, if_pos rfl]
    exact Session.client_of_status (by simp [Lifecycle.closed])
  · rw [Function.update_of_ne equal, if_neg equal]

theorem sameClients_exit (due : Int) (closed : (life.poolSession session).client = none) :
    life.SameClients (life.exit session due) := by
  intro other
  rw [client_exit]
  split
  · next equal => rw [equal, closed]
  · rfl

theorem Sound.client_of_opens (sound : life.Sound) {handler : Handler}
    (mem : handler ∈ life.pending) (opens : handler.opens = true) :
    (life.poolSession handler.session).client = none := by
  apply client_eq_none
  intro openClient
  have fits := (sound.fits handler mem).2.of_opens opens
  exact fits.2.2.1 openClient.2.1

variable {permission : Permission}

/-- A session is closed, or destroyed, for which there is permission if it is an open client. -/
theorem fewer_of_closed {next : Lifecycle}
    (permitted : life.OpenClient session → permission.closeClient)
    (others : ∀ other, other ≠ session →
      (next.poolSession other).client = (life.poolSession other).client)
    (closed : (next.poolSession session).client = none) :
    FewerClients permission life next := by
  intro other
  by_cases equal : other = session
  · subst equal
    by_cases openClient : life.OpenClient other
    · exact .inr ⟨permitted openClient, closed⟩
    · exact .inl (closed.trans (client_eq_none openClient).symm)
  · exact .inl (others other equal)

theorem Sound.fewerClients_apiMove {next : Lifecycle} (sound : life.Sound)
    (move : ApiMove permission life next) : FewerClients permission life next := by
  cases move with
  | exited session due notClosed opened numbered touched permitted =>
      apply fewer_of_closed permitted
      · intro other different
        rw [client_exit, if_neg different]
      · rw [client_exit, if_pos rfl]
  | listening acceptor =>
      have same : life.SameClients (life.allocate (.construct (life.currentConnexindex + 1))) :=
        sameClients_allocate sound rfl
      exact SameClients.fewer same permission
  | connecting connector =>
      have same : life.SameClients (life.allocate
          { Session.construct (life.currentConnexindex + 1) with
            connector := some connector, socketStatus := .connecting }) :=
        sameClients_allocate sound rfl
      exact SameClients.fewer same permission
  | _ => exact fun _ => .inl rfl

/-- Every move but that of a client that is accepted. -/
theorem Sound.fewerClients_move {next : Lifecycle} (unopened : ¬permission.openClient)
    (sound : life.Sound) (move : Move permission life next) :
    FewerClients permission life next := by
  cases move with
  | api move => exact sound.fewerClients_apiMove move
  | accepted split permitted => exact absurd permitted unopened
  | @connected connector session before after split =>
      -- the session of a connector has no acceptor
      have fits : (life.poolSession session).alive = true ∧
          (life.poolSession session).socketStatus = .connecting ∧
            (life.poolSession session).acceptor = none := (sound.fits_of_split split).2
      have opened : life.SameClients (life.setSession session
          { life.poolSession session with socketStatus := .connected }) := by
        apply sameClients_setSession
        simp [Session.client, fits.2.1, fits.2.2]
      exact opened.fewer permission
  | @refused acceptor session before after split =>
      have refused : life.SameClients (life.destroy session) :=
        sameClients_destroy (sound.client_of_opens (mem_of_split split) rfl)
      exact refused.fewer permission
  | @failed connector session before after split permitted =>
      have closed : (life.poolSession session).client = none :=
        sound.client_of_opens (mem_of_split split) rfl
      have errorClosed : ({ life.poolSession session with socketStatus := .error } :
          Session).client = none := Session.client_of_status (by simp)
      have errored : life.SameClients (life.setSession session
          { life.poolSession session with socketStatus := .error }) :=
        sameClients_setSession (errorClosed.trans closed.symm)
      have destroyed : (life.setSession session
          { life.poolSession session with socketStatus := .error }).SameClients
            ((life.setSession session
              { life.poolSession session with socketStatus := .error }).destroy session) := by
        apply sameClients_destroy
        simpa [Lifecycle.setSession] using errorClosed
      exact (errored.trans destroyed).fewer permission
  | @dropped acceptor session before after due split =>
      have dropped : (life.take (before ++ after)).SameClients
          ((life.take (before ++ after)).exit session due) :=
        sameClients_exit due (sound.client_of_opens (mem_of_split split) rfl)
      exact dropped.fewer permission
  | reread session state quiet =>
      have same : life.SameClients (life.setSession session
          { life.poolSession session with readState := state }) := sameClients_setSession rfl
      exact same.fewer permission
  | @destroyed session wait before after split permitted =>
      have closed : (life.poolSession session).socketStatus = .closed :=
        (sound.fits_of_split split).2
      have destroyed : life.SameClients (life.destroy session) :=
        sameClients_destroy (Session.client_of_status (by simp [closed]))
      exact destroyed.fewer permission
  | removedAll permitted clients =>
      intro session
      simp only [destroyAll_poolSession]
      split
      · next listed =>
          rcases clients with closes | closed
          · exact .inr ⟨closes, rfl⟩
          · rw [List.mem_map] at listed
            rcases listed with ⟨entry, entry_mem, rfl⟩
            exact .inl (client_eq_none (closed entry entry_mem)).symm
      · exact .inl rfl
  | released clients =>
      intro session
      rcases clients with closes | closed
      · exact .inr ⟨closes, rfl⟩
      · exact .inl (client_eq_none (closed session)).symm
  | _ => exact fun _ => .inl rfl

theorem Sound.fewerClients {next : Lifecycle} (unopened : ¬permission.openClient)
    (sound : life.Sound) (moves : Moves permission life next) :
    FewerClients permission life next := by
  have both : next.Sound ∧ FewerClients permission life next := by
    apply Transition.preserved_of_moves _ moves ⟨sound, fun _ => .inl rfl⟩
    rintro before after move ⟨beforeSound, fewer⟩
    exact ⟨beforeSound.move move, fewer.trans (beforeSound.fewerClients_move unopened move)⟩
  exact both.2

theorem Sound.sameClients {next : Lifecycle} (sound : life.Sound)
    (moves : Moves quietPermission life next) : life.SameClients next := by
  intro session
  rcases sound.fewerClients id moves session with same | ⟨closes, _⟩
  · exact same
  · exact absurd closes id

end SameClients

end Lifecycle

/-- The callbacks other than `OnAccept` keep a property of the upper layer's state. -/
structure Callbacks.Keep {U : Type} (callbacks : Callbacks U) (P : U → Prop) : Prop where
  onConnect : ∀ connector connIndex errorCode upper, P upper →
    P (callbacks.onConnect connector connIndex errorCode upper).1
  onReadComplete : ∀ owner connIndex msg length upper, P upper →
    P (callbacks.onReadComplete owner connIndex msg length upper).1
  onSend : ∀ owner connIndex length upper, P upper →
    P (callbacks.onSend owner connIndex length upper).1
  onClose : ∀ owner connIndex upper, P upper → P (callbacks.onClose owner connIndex upper)

namespace World

variable {U : Type} {callbacks : Callbacks U} {P : U → Prop}

theorem acceptNext_upper (acceptor : Nat) (memory : Bool) (world : World U) :
    (world.acceptNext acceptor memory).upper = world.upper := by
  cases memory <;> rfl

theorem removeAllSession_upper (world : World U) :
    world.removeAllSession.upper = world.upper := by
  have folded : ∀ (entries : List (Sigma fun _ : Int => Nat)) (current : World U),
      (entries.foldl (fun world entry => world.destroySession entry.2) current).upper =
        current.upper := by
    intro entries
    induction entries with
    | nil => exact fun _ => rfl
    | cons entry rest ih => exact fun current => ih (current.destroySession entry.2)
  exact folded world.mapSession.entries world

section Keep

/-! Each function keeps what the callbacks that it makes keep. -/

variable (closes : ∀ owner connIndex upper, P upper → P (callbacks.onClose owner connIndex upper))

include closes

theorem handleExit_upper {world : World U} (session : Nat)
    (holds : P world.upper) : P (world.handleExit callbacks session).upper := by
  have left : ∀ current : World U, (current.leaveMap session).upper = current.upper := by
    intro current
    simp only [leaveMap]
    split <;> rfl
  have told : ∀ current : World U, P current.upper →
      P (current.tellClosed callbacks session).upper := by
    intro current currentHolds
    simp only [tellClosed]
    split
    · exact closes _ _ _ currentHolds
    · exact closes _ _ _ currentHolds
    · exact currentHolds
  simp only [handleExit]
  split
  · exact holds
  · rw [left]
    exact told _ holds

theorem close_upper {world : World U} (session : Nat)
    (waitSeconds : Int) (holds : P world.upper) :
    P (world.close callbacks session waitSeconds).upper := by
  simp only [close]
  split
  · exact holds
  · exact handleExit_upper closes session holds

theorem closeSocket_upper {world : World U} (connectID : Int)
    (holds : P world.upper) : P (world.closeSocket callbacks connectID).upper := by
  simp only [closeSocket]
  split
  · exact holds
  · exact close_upper closes _ 0 holds

theorem perform_upper {world : World U} (call : ApiCall)
    (holds : P world.upper) : P (world.perform callbacks call).upper := by
  cases call with
  | send connectID encode =>
      simp only [perform]
      split
      · simp only [sendSession]
        split <;> exact holds
      · exact holds
  | closeSocket connectID => exact closeSocket_upper closes connectID holds
  | asyncClose connectID waitSeconds =>
      simp only [perform]
      split
      · exact holds
      · exact close_upper closes _ waitSeconds holds
  | startListen acceptor memory =>
      simp only [perform, startListen, allocSession]
      cases memory <;> split <;> exact holds
  | stopListen acceptor failed =>
      simp only [perform]
      split <;> exact holds
  | asyncConnect connector memory =>
      simp only [perform, asyncConnect, allocSession]
      cases memory <;> split <;> exact holds
  | disConnect connector =>
      simp only [perform]
      split
      · exact holds
      · exact closeSocket_upper closes _ holds

theorem performAll_upper {world : World U} {result : U × List ApiCall}
    (holds : P result.1) : P (world.performAll callbacks result).upper := by
  rcases result with ⟨upper, calls⟩
  simp only [performAll]
  have started : P { world with upper := upper }.upper := holds
  generalize { world with upper := upper } = current at started ⊢
  clear holds
  induction calls generalizing current with
  | nil => exact started
  | cons call rest ih => exact ih _ (perform_upper closes call started)

theorem onAccept_upper
    (accepts : ∀ acceptor connIndex memory upper, P upper →
      P (callbacks.onAccept acceptor connIndex memory upper).1)
    {world : World U} (acceptor session : Nat) (memory : Bool) (holds : P world.upper) :
    P (world.onAccept callbacks acceptor session memory).upper :=
  performAll_upper closes (accepts _ _ _ _ holds)

theorem onConnect_upper
    (connects : ∀ connector connIndex errorCode upper, P upper →
      P (callbacks.onConnect connector connIndex errorCode upper).1)
    {world : World U} (connector session : Nat) (errorCode : Int) (holds : P world.upper) :
    P (world.onConnect callbacks connector session errorCode).upper :=
  performAll_upper closes (connects _ _ _ _ holds)

theorem onReadComplete_upper
    (reads : ∀ owner connIndex msg length upper, P upper →
      P (callbacks.onReadComplete owner connIndex msg length upper).1)
    {world : World U} (session : Nat) (msg : NetMsg) (length : Int) (holds : P world.upper) :
    P (world.onReadComplete callbacks session msg length).upper := by
  simp only [onReadComplete]
  split
  · exact holds
  · exact performAll_upper closes (reads _ _ _ _ _ holds)

theorem onSend_upper
    (sends : ∀ owner connIndex length upper, P upper →
      P (callbacks.onSend owner connIndex length upper).1)
    {world : World U} (session : Nat) (length : Int) (holds : P world.upper) :
    P (world.onSend callbacks session length).upper := by
  simp only [onSend]
  split
  · exact holds
  · exact performAll_upper closes (sends _ _ _ _ holds)

theorem handleReadSp_upper
    (reads : ∀ owner connIndex msg length upper, P upper →
      P (callbacks.onReadComplete owner connIndex msg length upper).1)
    {world : World U} (session : Nat) (receive : Receive) (completion : Completion)
    (holds : P world.upper) :
    P (world.handleReadSp callbacks session receive completion).upper := by
  have finishes : ∀ (current : World U) (outcome : ReadOutcome), P current.upper →
      P (current.finishReadSp callbacks session outcome).upper := by
    intro current outcome currentHolds
    have delivered : P ((current.modify session fun s =>
        { s with readState := outcome.state }).deliver callbacks session
          outcome.deliver).upper := by
      simp only [deliver]
      split
      · exact currentHolds
      · exact onReadComplete_upper closes reads session _ _ currentHolds
    simp only [finishReadSp]
    cases outcome.receive <;> cases outcome.exit
    · exact delivered
    · exact handleExit_upper closes session delivered
    · exact delivered
    · exact handleExit_upper closes session delivered
  simp only [handleReadSp]
  split
  · exact holds
  · split
    · exact holds
    · exact finishes _ _ holds

/-- A step keeps what its callbacks keep; those of an accept and of a connection attempt are made
only if it is one. -/
theorem step_keeps {world next : World U} {label : Label}
    (accepts : ∀ index completion acceptor session, label = .complete index completion →
      world.pending[index]? = some (.handleAccept acceptor session) → completion.error = 0 →
        completion.remoteError = false → ∀ acceptor connIndex memory upper, P upper →
          P (callbacks.onAccept acceptor connIndex memory upper).1)
    (connects : ∀ index completion connector session, label = .complete index completion →
      world.pending[index]? = some (.handleConnect connector session) →
        (completion.error ≠ 0 → world.stopSocketFlag = false) →
          ∀ connector connIndex errorCode upper, P upper →
            P (callbacks.onConnect connector connIndex errorCode upper).1)
    (reads : ∀ owner connIndex msg length upper, P upper →
      P (callbacks.onReadComplete owner connIndex msg length upper).1)
    (sends : ∀ owner connIndex length upper, P upper →
      P (callbacks.onSend owner connIndex length upper).1)
    (steps : world.step callbacks label = some next) (holds : P world.upper) : P next.upper := by
  cases label with
  | complete index completion =>
      rcases complete_cases steps with ⟨handler, before, after, at_index, _, _, rfl⟩
      cases handler with
      | handleAccept acceptor session =>
          simp only [handle, handleAccept]
          split
          · exact holds
          · next succeeded =>
              rw [acceptNext_upper]
              split
              · exact handleExit_upper closes session holds
              · next read =>
                  have kept := accepts index completion acceptor session rfl at_index
                    (not_not.mp succeeded) (Bool.eq_false_iff.mpr read)
                  exact onAccept_upper closes kept acceptor session _ holds
      | handleConnect connector session =>
          simp only [handle, handleConnect]
          split
          · next failed =>
              split
              · exact holds
              · next running =>
                  have kept := connects index completion connector session rfl at_index
                    fun _ => Bool.eq_false_iff.mpr running
                  exact onConnect_upper closes kept connector session _ holds
          · next succeeded =>
              have kept := connects index completion connector session rfl at_index
                fun failed => absurd failed succeeded
              exact onConnect_upper closes kept connector session _ holds
      | handleReadSp session receive =>
          exact handleReadSp_upper closes reads session receive completion holds
      | handleWrite session length =>
          simp only [handle, handleWrite]
          split
          · exact holds
          · exact onSend_upper closes sends session length holds
      | handleExit session wait => exact handleExit_upper closes session holds
      | handleDestory session wait => exact holds
  | call call =>
      simp only [step, Option.some.injEq] at steps
      subst steps
      exact perform_upper closes call holds
  | tick seconds =>
      simp only [step, Option.some.injEq] at steps
      subst steps
      exact holds
  | stop =>
      simp only [step, Option.some.injEq] at steps
      subst steps
      exact holds
  | removeAll =>
      simp only [step, Option.some.injEq] at steps
      subst steps
      rw [removeAllSession_upper]
      exact holds
  | release =>
      simp only [step, Option.ite_none_right_eq_some, Option.some.injEq] at steps
      rcases steps with ⟨_, rfl⟩
      exact holds

end Keep

/-- A step in which no client is accepted keeps what the callbacks other than `OnAccept` keep. -/
theorem step_upper (keep : callbacks.Keep P) {world next : World U} {label : Label}
    (unaccepted : ∀ index completion acceptor session, label = .complete index completion →
      world.pending[index]? = some (.handleAccept acceptor session) →
        completion.error = 0 → completion.remoteError = true)
    (steps : world.step callbacks label = some next) (holds : P world.upper) : P next.upper := by
  apply step_keeps keep.onClose _ _ keep.onReadComplete keep.onSend steps holds
  · intro index completion acceptor session labelled at_index succeeded read
    have unread := unaccepted index completion acceptor session labelled at_index succeeded
    rw [read] at unread
    contradiction
  · intro index completion connector session labelled at_index running
    exact keep.onConnect

/-- The step accepts a client whose remote endpoint can be read, or accepts none. -/
theorem accepts_or_not (world : World U) (label : Label) :
    (∃ index completion acceptor session, label = .complete index completion ∧
      world.pending[index]? = some (.handleAccept acceptor session) ∧ completion.error = 0 ∧
        completion.remoteError = false) ∨
    ∀ index completion acceptor session, label = .complete index completion →
      world.pending[index]? = some (.handleAccept acceptor session) →
        completion.error = 0 → completion.remoteError = true := by
  rw [or_iff_not_imp_left]
  intro unaccepted index completion acceptor session labelled at_index succeeded
  by_contra read
  rw [Bool.not_eq_true] at read
  exact unaccepted ⟨index, completion, acceptor, session, labelled, at_index, succeeded, read⟩

theorem permitsStep_closing {world : World U} {label : Label}
    (unaccepted : ∀ index completion acceptor session, label = .complete index completion →
      world.pending[index]? = some (.handleAccept acceptor session) →
        completion.error = 0 → completion.remoteError = true) :
    world.PermitsStep callbacks Lifecycle.closingPermission label := by
  have calls : ∀ calls, Lifecycle.closingPermission.Calls calls := fun _ _ _ _ => trivial
  cases label with
  | complete index completion =>
      intro handler at_index
      cases handler with
      | handleAccept acceptor session =>
          intro succeeded read
          have unread := unaccepted index completion acceptor session rfl at_index succeeded
          rw [read] at unread
          contradiction
      | handleConnect connector session => exact ⟨fun _ _ => trivial, calls _⟩
      | handleReadSp session receive => exact fun _ _ _ _ => calls _
      | handleWrite session length => exact fun _ _ => calls _
      | handleExit session wait => exact fun _ => trivial
      | handleDestory session wait => exact .inl trivial
  | call call => exact fun _ => trivial
  | removeAll => exact ⟨.inl trivial, .inl trivial⟩
  | release => exact .inl trivial
  | tick seconds => trivial
  | stop => trivial

end World

end SunPush
