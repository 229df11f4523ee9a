import SunPush.Session.Service

/-!
# The moves of a session's life

What the steps of the service do to the sessions, free of the callbacks' state,
the clock and the counters.  A move is one transition in the life of a single
session: it is allocated, opened, refused, read from, closed or destroyed, a
handler is queued or taken, or a callback is noted.  A step of the service is a
sequence of moves.

The guard of a move says what the functions of the source have established when
they get there.  Five kinds of moves are named in a `Permission`, so that a run
which never makes them is a run of the moves without that permission.
-/

namespace SunPush

open CInteger

namespace Handler

/-- The handler completes the opening of its session. -/
def opens : Handler → Bool
  | handleAccept _ _ => true
  | handleConnect _ _ => true
  | _ => false

/-- The handler completes a receive. -/
def receives : Handler → Bool
  | handleReadSp _ _ => true
  | _ => false

/-- The handlers a call into the socket layer queues for an open session. -/
def queues : Handler → Bool
  | handleWrite _ _ => true
  | handleExit _ _ => true
  | _ => false

@[simp]
theorem session_cancel (target : Nat) (handler : Handler) :
    (handler.cancel target).session = handler.session := by
  cases handler <;> rfl

@[simp]
theorem opens_cancel (target : Nat) (handler : Handler) :
    (handler.cancel target).opens = handler.opens := by
  cases handler <;> rfl

@[simp]
theorem receives_cancel (target : Nat) (handler : Handler) :
    (handler.cancel target).receives = handler.receives := by
  cases handler <;> rfl

end Handler

/-- The moves that some runs never make. -/
structure Permission where
  /-- A session of an acceptor is opened. -/
  openClient : Prop
  /-- An open session of an acceptor is closed or destroyed. -/
  closeClient : Prop
  /-- A session whose connection attempt failed is destroyed and used. -/
  useRefused : Prop
  /-- A session is destroyed by its timer while another handler will still use it. -/
  destroyEarly : Prop
  /-- `RemoveAllSession` destroys sessions that a handler will still use. -/
  removeEarly : Prop

/-- Every move. -/
def Permission.all : Permission where
  openClient := True
  closeClient := True
  useRefused := True
  destroyEarly := True
  removeEarly := True

namespace Lifecycle

def setSession (life : Lifecycle) (session : Nat) (fields : Session) : Lifecycle :=
  { life with poolSession := Function.update life.poolSession session fields }

def take (life : Lifecycle) (pending : List Handler) : Lifecycle :=
  { life with pending := pending }

def queue (life : Lifecycle) (handler : Handler) : Lifecycle :=
  { life with pending := life.pending ++ [handler] }

def cancel (life : Lifecycle) (session : Nat) : Lifecycle :=
  { life with pending := life.pending.map (Handler.cancel session) }

def note (life : Lifecycle) (event : Event) : Lifecycle :=
  { life with log := life.log ++ [event] }

/-- If no destroyed session has been used, this one is alive. -/
def Touched (life : Lifecycle) (session : Nat) : Prop :=
  life.usedAfterDestroy = false → (life.poolSession session).alive = true

/-- The session has been allocated, and its identifier is its number. -/
def Numbered (life : Lifecycle) (session : Nat) : Prop :=
  session ≤ life.currentConnexindex ∧ (life.poolSession session).connIndex = toLong session

def use (life : Lifecycle) (session : Nat) : Lifecycle :=
  { life with usedAfterDestroy := life.usedAfterDestroy || !(life.poolSession session).alive }

/-- The number of the next session comes into use. -/
def allocate (life : Lifecycle) (fields : Session) : Lifecycle :=
  { life with
    currentConnexindex := life.currentConnexindex + 1
    poolSession :=
      Function.update life.poolSession (life.currentConnexindex + 1) fields }

/-- A session is connected and entered into the map. -/
def openSession (life : Lifecycle) (session : Nat) (fields : Session) : Lifecycle :=
  { life.setSession session fields with
    mapSession := life.mapSession.insert fields.connIndex session }

/-- A session is destroyed. -/
def destroy (life : Lifecycle) (session : Nat) : Lifecycle :=
  ((life.use session).setSession session (life.poolSession session).destruct).cancel session

/-- Several sessions are destroyed. -/
def destroyAll (life : Lifecycle) (sessions : List Nat) : Lifecycle :=
  sessions.foldl destroy life

@[simp]
theorem destroyAll_currentConnexindex (life : Lifecycle) (sessions : List Nat) :
    (life.destroyAll sessions).currentConnexindex = life.currentConnexindex := by
  induction sessions generalizing life with
  | nil => rfl
  | cons first rest ih => exact ih (life.destroy first)

theorem destroyAll_poolSession (life : Lifecycle) (sessions : List Nat) (session : Nat) :
    (life.destroyAll sessions).poolSession session =
      if session ∈ sessions then (life.poolSession session).destruct
      else life.poolSession session := by
  induction sessions generalizing life with
  | nil => rfl
  | cons first rest ih =>
      change ((life.destroy first).destroyAll rest).poolSession session = _
      rw [ih]
      by_cases same : session = first
      · subst same
        simp [destroy, cancel, setSession, Session.destruct]
      · simp [destroy, cancel, setSession, use, same]

theorem destroyAll_log (life : Lifecycle) (sessions : List Nat) :
    (life.destroyAll sessions).log = life.log := by
  induction sessions generalizing life with
  | nil => rfl
  | cons first rest ih => exact ih (life.destroy first)

/-- A session is closed: its owner is told and forgotten. -/
def closed (session : Session) : Session :=
  { session with
    socketStatus := .closed
    acceptor := none
    connector := if session.acceptor.isSome then session.connector else none }

/-- The owner of a session is told that it is closed. -/
def tell (life : Lifecycle) (session : Nat) : Lifecycle :=
  { life with
    log :=
      if (life.poolSession session).owner.isSome then life.log ++ [.onClose session]
      else life.log }

/-- A session leaves the map, and its destruction is scheduled if it was there. -/
def leave (life : Lifecycle) (connIndex : Int) (session : Nat) (due : Int) : Lifecycle :=
  match life.mapSession.lookup connIndex with
  | none => life
  | some _ =>
      ({ life with mapSession := life.mapSession.erase connIndex }.cancel session).queue
        (.handleDestory session ⟨due, false⟩)

/-- `handle_exit` of a session that is not closed yet. -/
def exit (life : Lifecycle) (session : Nat) (due : Int) : Lifecycle :=
  ((life.tell session).setSession session (closed (life.poolSession session))).leave
    (life.poolSession session).connIndex session due

section Exit

variable (life : Lifecycle) (session : Nat) (due : Int)

@[simp]
theorem exit_stopSocketFlag : (life.exit session due).stopSocketFlag = life.stopSocketFlag := by
  simp only [exit, leave]
  split <;> rfl

@[simp]
theorem exit_currentConnexindex :
    (life.exit session due).currentConnexindex = life.currentConnexindex := by
  simp only [exit, leave]
  split <;> rfl

@[simp]
theorem exit_usedAfterDestroy :
    (life.exit session due).usedAfterDestroy = life.usedAfterDestroy := by
  simp only [exit, leave]
  split <;> rfl

@[simp]
theorem exit_poolSession :
    (life.exit session due).poolSession =
      Function.update life.poolSession session (closed (life.poolSession session)) := by
  simp only [exit, leave]
  split <;> rfl

@[simp]
theorem exit_log : (life.exit session due).log = (life.tell session).log := by
  simp only [exit, leave]
  split <;> rfl

theorem exit_lookup {connectID : Int} {other : Nat}
    (found : (life.exit session due).mapSession.lookup connectID = some other) :
    life.mapSession.lookup connectID = some other ∧
      connectID ≠ (life.poolSession session).connIndex := by
  simp only [exit, leave, setSession, tell] at found
  split at found
  · next absent =>
      refine ⟨found, ?_⟩
      rintro rfl
      rw [absent] at found
      contradiction
  · change (life.mapSession.erase (life.poolSession session).connIndex).lookup connectID =
      some other at found
    have different : connectID ≠ (life.poolSession session).connIndex := by
      rintro rfl
      rw [AList.lookup_erase] at found
      contradiction
    rw [AList.lookup_erase_ne different] at found
    exact ⟨found, different⟩

theorem exit_pending :
    (life.exit session due).pending = life.pending ∨
      (life.exit session due).pending =
        life.pending.map (Handler.cancel session) ++ [.handleDestory session ⟨due, false⟩] := by
  simp only [exit, leave]
  split
  · exact .inl rfl
  · exact .inr rfl

/-- The handlers after `handle_exit`: the earlier ones, their waits cancelled, and the destruction
of the session. -/
theorem mem_exit_pending {handler : Handler} (mem : handler ∈ (life.exit session due).pending) :
    handler ∈ life.pending ∨ (∃ earlier ∈ life.pending, handler = earlier.cancel session) ∨
      handler = .handleDestory session ⟨due, false⟩ := by
  rcases exit_pending life session due with same | replaced
  · rw [same] at mem
    exact .inl mem
  · rw [replaced, List.mem_append, List.mem_map, List.mem_singleton] at mem
    rcases mem with ⟨earlier, earlier_mem, rfl⟩ | added
    · exact .inr (.inl ⟨earlier, earlier_mem, rfl⟩)
    · exact .inr (.inr added)

end Exit

namespace Numbered

variable {life : Lifecycle} {session : Nat}

theorem setSession {target : Nat} {fields : Session} (numbered : life.Numbered session)
    (connIndex : session = target → fields.connIndex = toLong session) :
    (life.setSession target fields).Numbered session := by
  refine ⟨numbered.1, ?_⟩
  by_cases same : session = target
  · subst same
    simp only [Lifecycle.setSession, Function.update_self]
    exact connIndex rfl
  · simp only [Lifecycle.setSession, Function.update_of_ne same]
    exact numbered.2

theorem allocate (numbered : life.Numbered session) (fields : Session) :
    (life.allocate fields).Numbered session := by
  have different : session ≠ life.currentConnexindex + 1 := by
    have := numbered.1
    omega
  refine ⟨Nat.le_succ_of_le numbered.1, ?_⟩
  simp only [Lifecycle.allocate, Function.update_of_ne different]
  exact numbered.2

theorem exit (numbered : life.Numbered session) (target : Nat) (due : Int) :
    (life.exit target due).Numbered session := by
  refine ⟨by simpa using numbered.1, ?_⟩
  rw [exit_poolSession]
  by_cases same : session = target
  · subst same
    rw [Function.update_self]
    exact numbered.2
  · rw [Function.update_of_ne same]
    exact numbered.2

end Numbered

/-- The session is an open session of an acceptor. -/
def OpenClient (life : Lifecycle) (session : Nat) : Prop :=
  (life.poolSession session).alive = true ∧
    (life.poolSession session).socketStatus = .connected ∧
      (life.poolSession session).acceptor.isSome = true

/-- None of the `pending` handlers will use the session: they are receives of it, which return at
once because the stop flag is set, or handlers of other sessions. -/
def Idle (life : Lifecycle) (pending : List Handler) (session : Nat) : Prop :=
  ∀ handler ∈ pending, handler.session = session →
    life.stopSocketFlag = true ∧ handler.receives = true

/-- A callback can be noted: a message or a completed write is reported to the session's owner. -/
def Notes (life : Lifecycle) : Event → Prop
  | .onReadComplete session _ => (life.poolSession session).owner.isSome = true
  | .onSend session _ => (life.poolSession session).owner.isSome = true
  | .onConnect _ _ => True
  | .onAccept _ => False
  | .onClose _ => False

/-- The moves of a callback: it is noted, and calls into the socket layer. -/
inductive ApiMove (permission : Permission) (life : Lifecycle) : Lifecycle → Prop where
  | noted (event : Event) (notes : life.Notes event) : ApiMove permission life (life.note event)
  | cancelled (session : Nat) : ApiMove permission life (life.cancel session)
  | queued (handler : Handler) (queues : handler.queues = true)
      (mapped : ∃ connectID, life.mapSession.lookup connectID = some handler.session) :
      ApiMove permission life (life.queue handler)
  | exited (session : Nat) (due : Int)
      (notClosed : (life.poolSession session).isClosed = false)
      (opened : ∀ handler ∈ life.pending, handler.session = session → handler.opens = false)
      (numbered : life.Numbered session) (touched : life.Touched session)
      (permitted : life.OpenClient session → permission.closeClient) :
      ApiMove permission life (life.exit session due)
  | listening (acceptor : Nat) :
      ApiMove permission life
        ((life.allocate (.construct (life.currentConnexindex + 1))).queue
          (.handleAccept acceptor (life.currentConnexindex + 1)))
  | connecting (connector : Nat) :
      ApiMove permission life
        ((life.allocate { Session.construct (life.currentConnexindex + 1) with
            connector := some connector, socketStatus := .connecting }).queue
          (.handleConnect connector (life.currentConnexindex + 1)))

/-- The moves of the service. -/
inductive Move (permission : Permission) (life : Lifecycle) : Lifecycle → Prop where
  | api {next : Lifecycle} (move : ApiMove permission life next) : Move permission life next
  | stopped : Move permission life { life with stopSocketFlag := true }
  /-- A handler returns at once because of the stop flag. -/
  | skipped {handler : Handler} {before after : List Handler}
      (split : life.pending = before ++ handler :: after) (flag : life.stopSocketFlag = true) :
      Move permission life (life.take (before ++ after))
  /-- A handler of an opened session starts. -/
  | taken {handler : Handler} {before after : List Handler}
      (split : life.pending = before ++ handler :: after)
      (kind : handler.queues = true ∨ handler.receives = true ∧ life.stopSocketFlag = false) :
      Move permission life ((life.take (before ++ after)).use handler.session)
  | accepted {acceptor session : Nat} {before after : List Handler}
      (split : life.pending = before ++ .handleAccept acceptor session :: after)
      (permitted : permission.openClient) :
      Move permission life (((life.take (before ++ after)).openSession session
        { life.poolSession session with
          socketStatus := .connected, acceptor := some acceptor }).note (.onAccept session))
  | connected {connector session : Nat} {before after : List Handler}
      (split : life.pending = before ++ .handleConnect connector session :: after) :
      Move permission life ((life.take (before ++ after)).openSession session
        { life.poolSession session with socketStatus := .connected })
  /-- An accept fails: its session is destroyed. -/
  | refused {acceptor session : Nat} {before after : List Handler}
      (split : life.pending = before ++ .handleAccept acceptor session :: after) :
      Move permission life ((life.take (before ++ after)).destroy session)
  /-- A connection attempt fails: its session is destroyed and then used. -/
  | failed {connector session : Nat} {before after : List Handler}
      (split : life.pending = before ++ .handleConnect connector session :: after)
      (permitted : permission.useRefused) :
      Move permission life ((((life.take (before ++ after)).setSession session
        { life.poolSession session with socketStatus := .error }).destroy session).use session)
  /-- The remote endpoint of an accepted session cannot be read. -/
  | dropped {acceptor session : Nat} {before after : List Handler} (due : Int)
      (split : life.pending = before ++ .handleAccept acceptor session :: after) :
      Move permission life ((life.take (before ++ after)).exit session due)
  /-- The receive counters of a session change while none of its receives is pending. -/
  | reread (session : Nat) (state : ReadState)
      (quiet : ∀ handler ∈ life.pending, handler.session = session → handler.receives = false) :
      Move permission life
        (life.setSession session { life.poolSession session with readState := state })
  | received (session : Nat) (receive : Receive)
      (quiet : ∀ handler ∈ life.pending, handler.session = session →
        handler.receives = false ∧ handler.opens = false)
      (window : ReadState.Window (life.poolSession session).readState receive)
      (numbered : life.Numbered session) (touched : life.Touched session) :
      Move permission life (life.queue (.handleReadSp session receive))
  | destroyed {session : Nat} {wait : Wait} {before after : List Handler}
      (split : life.pending = before ++ .handleDestory session wait :: after)
      (permitted : permission.destroyEarly ∨ life.Idle (before ++ after) session) :
      Move permission life ((life.take (before ++ after)).destroy session)
  | removedAll
      (permitted : permission.removeEarly ∨
        ∀ entry ∈ life.mapSession.entries, life.Idle life.pending entry.2)
      (clients : permission.closeClient ∨
        ∀ entry ∈ life.mapSession.entries, ¬life.OpenClient entry.2) :
      Move permission life
        { life.destroyAll (life.mapSession.entries.map Sigma.snd) with mapSession := ∅ }
  | released (clients : permission.closeClient ∨ ∀ session, ¬life.OpenClient session) :
      Move permission life
        { life with
          poolSession := fun session => (life.poolSession session).destruct
          mapSession := ∅
          pending := [] }

end Lifecycle

end SunPush
